import WebhookRelay.Breaker.Edits
import WebhookRelay.Library.Parts
import WebhookRelay.Secrets.Signing

/-!
# The rotation window

While a receiver cuts over, requests should carry a second signature with the secret that was
in effect before. What moves to the previous slot is the `signing_secret` column: when the
column is blank and the site's default secret is in effect, the default does not move, and a
rerun with the same secret moves the new secret over the old one. An attempt that has loaded the
row before an edit and sends its request after it knows nothing of the edit, and a custom header
can be sent in the place of the signature.

`rotation_window_kept` says when the window holds, whatever edits and attempts are interleaved: no
edit loses the secret that it replaces or that an earlier one has replaced, and no request is sent
with an outdated copy or a custom header of that name.
-/

namespace WebhookRelay

open Interleaving Program Dictionary

variable {F : Fernet}

namespace SecretEdit

/-- The new secret that an edit gives. -/
def newSecret : SecretEdit F → String
  | .command _ options =>
    ((options.newSecretFile.bind SecretFile.contents).map strip).getD ""
  | .admin _ form => form.rawNewSecret

/-- The edit gives a new secret that is not blank, keeps the previous one and clears none. -/
def Rotates (edit : SecretEdit F) : Prop :=
  edit.newSecret ≠ "" ∧ match edit with
  | .command _ options => options.clearPrevious = false ∧ options.noKeepPrevious = false
  | .admin _ form => form.clearSigningSecret = false ∧ form.rotateKeepingPrevious = true ∧
      form.clearPreviousSigningSecret = false

end SecretEdit

/-- The secret that is in the previous slot when the instance is saved with a new one. -/
def WebhookEndpoint.kept (self : WebhookEndpoint) : String :=
  if self.signingSecret = "" then self.signingSecretPrevious else self.signingSecret

/-- The row after a sequence of edits, with the value that `effective_secret()` had just before
its last change. -/
structure Window where
  row : EndpointRow
  before : Option String := none

namespace Window

variable (settings : Settings) (k : F.Key)

/-- What `effective_secret()` returns for the row. -/
def effective (w : Window) : String := (loadedRow k w.row).effective settings

/-- The window after an edit has saved this row. -/
def next (w : Window) (row : EndpointRow) : Window where
  row := row
  before := if effective settings k ⟨row, none⟩ = w.effective settings k then w.before
    else some (w.effective settings k)

/-- The window that the operations of a log lead to. -/
def after {ι : Type} (init : EndpointRow) (log : List (ι × Event together)) : Window :=
  log.foldl (fun w entry => match entry.2.op with
    | .inr (.saveRow row) => w.next settings k row
    | _ => w) ⟨init, none⟩

/-- An edit that changes the effective secret finds it in the column, or in the previous slot
if the column is blank, and it does not look encrypted; unless there is none. One that does
not change it finds the column blank, and a previous secret that does not look encrypted;
unless there is none to protect. -/
def Keeps (w : Window) (secret : String) : Prop :=
  let endpoint := loadedRow k w.row
  let changed := { endpoint with signingSecret := restored k secret }
  if changed.effective settings = w.effective settings k then
    (∀ P ∈ w.before, P = "") ∨
      endpoint.signingSecret = "" ∧ ¬ Prefixed endpoint.signingSecretPrevious
  else w.effective settings k = "" ∨
    endpoint.kept = w.effective settings k ∧ ¬ Prefixed endpoint.kept

end Window

/-! ## What a rotation writes -/

/-- The row is saved with the new secret, and the current one of the loaded row in the previous
slot. -/
def SecretEdit.Saves (edit : SecretEdit F) (k : F.Key) (row saved : EndpointRow) : Prop :=
  (∃ nonce, saved.signingSecret = stored k nonce edit.newSecret) ∧
    ∃ nonce, saved.signingSecretPrevious = stored k nonce (loadedRow k row).kept

theorem keepPrevious_eq (oldSecret : String) (endpoint : WebhookEndpoint) :
    keepPrevious true oldSecret endpoint = { endpoint with
      signingSecretPrevious :=
        if oldSecret = "" then endpoint.signingSecretPrevious else oldSecret } := by
  by_cases h : oldSecret = "" <;> simp [keepPrevious, h]

section Rotation

variable {settings : Settings} {key : Option String} {k : F.Key} {row saved : EndpointRow}

/-- A rotation loads the row and saves it with its new secret, or fails before that. -/
theorem run_rotation (hbackend : settings.secretBackend = "database") {edit : SecretEdit F}
    (hrotates : edit.Rotates) (pk : Nat) : ∃ missing saving next,
      edit.run settings key pk = loadThen F key pk missing next ∧ ∀ endpoint : WebhookEndpoint,
        (∃ e, next endpoint = .ret (.error e)) ∨
          ∃ copy : WebhookEndpoint, next endpoint = saveEndpoint F key saving copy ∧
            copy.pk = endpoint.pk ∧ copy.signingSecret = edit.newSecret ∧
              copy.signingSecretPrevious = endpoint.kept := by
  have hdatabase : getSecretBackend settings = .ok .database := by simp [getSecretBackend, hbackend]
  cases edit with
  | command saving options =>
    obtain ⟨hne, hclear, hkeep⟩ := hrotates
    refine ⟨_, saving, _, rfl, fun endpoint => .inr ?_⟩
    simp only [SecretEdit.newSecret] at hne ⊢
    cases hfile : options.newSecretFile with
    | none => simp [hfile] at hne
    | some file =>
      cases hcontents : file.contents with
      | none => simp [hfile, hcontents] at hne
      | some text =>
        have hstrip : strip text ≠ "" := by simpa [hfile, hcontents] using hne
        refine ⟨{ keepPrevious true endpoint.signingSecret endpoint with
          signingSecret := strip text }, ?_, by simp, by simp [hcontents], ?_⟩
        · simp [hdatabase, setNewSecret, hcontents, hstrip, hkeep, hclear, clearPrevious,
            SecretBackend.setSecret]
        · rw [keepPrevious_eq]
          rfl
  | admin saving form =>
    obtain ⟨hne, hclear, hkeep, hclearPrevious⟩ := hrotates
    refine ⟨_, saving, _, rfl, fun endpoint => ?_⟩
    have hraw : form.rawNewSecret ≠ "" := hne
    have hcleaned : form.cleanedSecret endpoint.signingSecret = form.rawNewSecret := by
      simp [AdminForm.cleanedSecret, hclear, hraw]
    dsimp only
    cases hvalid : form.validate endpoint with
    | error e => exact .inl ⟨e, rfl⟩
    | ok _ =>
      refine .inr ⟨{ keepPrevious true endpoint.signingSecret (form.construct endpoint) with
        signingSecret := form.rawNewSecret }, ?_, by simp [AdminForm.construct], rfl, ?_⟩
      · simp [hdatabase, saveModelSecrets, hraw, hkeep, hcleaned, hclearPrevious, clearPrevious,
          SecretBackend.setSecret]
      · rw [keepPrevious_eq]
        rfl

end Rotation

/-! ## What workers send and save -/

section Workers

variable (key : Option String) (k : F.Key) (lib : Primitives) (settings : Settings)

/-- A delivery sends what is built from the row that it has loaded last, and an edit saves this
row. -/
def Role.conduct (role : Role F) : Discipline together (Option EndpointRow) where
  track := writingBack.onRight.track
  permits
    | loaded, .inl (.post request) => ∃ job, role = .delivers job ∧ ∃ row ∈ loaded,
        ∃ copy, loadRow F key row = .ok copy ∧
          ∃ payload, request = copy.ownRequest lib settings job.correlationId payload
    | loaded, .inr (.saveRow saved) =>
      ∃ edit, role = .edits edit ∧ ∃ row ∈ loaded, saved.pk = row.pk ∧ edit.Saves k row saved
    | _, .inr (.saveSecrets _) => False
    | _, _ => True

variable {key k lib settings}

theorem follows_delivery_conduct (hbackend : settings.secretBackend = "database") (pk : Nat)
    (job : Job) (retries : Nat) (loaded : Option EndpointRow) :
    (delivery F key pk lib settings job retries).Follows
      ((Role.delivers job : Role F).conduct key k lib settings) (fun _ _ => True) loaded := by
  obtain ⟨rest, htree, hrest⟩ := attempt_builds lib hbackend job retries
  rw [delivery, htree, translate_call]
  refine ⟨trivial, fun (found : Option EndpointRow) => ?_⟩
  -- from here on the loaded row stays the same
  refine follows_translate_of (R := fun _ loaded' => loaded' = trackLoad loaded
    ⟨.getRow pk, found⟩) (fun _ loaded' op hloaded hop => ?_) (fun _ _ _ _ _ => trivial)
    (hrest (enabledOf F key found)) rfl
  subst hloaded
  cases op with
  | getEnabled => cases hop
  | post request =>
    obtain ⟨endpoint, hfound, -, payload, rfl⟩ := hop
    cases found with
    | none => cases hfound
    | some row =>
      exact ⟨⟨job, rfl, row, rfl, endpoint, loadRow_of_enabledOf F hfound, payload, rfl⟩,
        fun _ => rfl⟩
  | _ => exact ⟨trivial, fun _ => rfl⟩

theorem follows_edit_conduct (hbackend : settings.secretBackend = "database")
    (hkey : getFernet F key = .ok k) {edit : SecretEdit F} (hrotates : edit.Rotates) (pk : Nat)
    (loaded : Option EndpointRow) :
    ((edit.run settings key pk).right .inr : Program together Finish).Follows
      ((Role.edits edit).conduct key k lib settings) (fun _ _ => True) loaded := by
  obtain ⟨missing, saving, next, hrun, hnext⟩ := run_rotation hbackend hrotates pk
  rw [hrun, loadThen, right_call]
  refine ⟨trivial, fun (found : Option EndpointRow) => ?_⟩
  cases found with
  | none => trivial
  | some row =>
    dsimp only
    rw [loadRow_ok hkey]
    dsimp only
    rcases hnext (loadedRow k row) with ⟨e, hfails⟩ |
      ⟨copy, hsaves, hpk, hcurrent, hprevious⟩
    · rw [hfails]
      trivial
    · rw [hsaves]
      rcases saveEndpoint_cases hkey saving copy with hrefused | hsaved
      · rw [hrefused]
        trivial
      · rw [hsaved, right_call]
        refine ⟨⟨edit, rfl, row, rfl, hpk, ?_, ?_⟩, fun _ => trivial⟩
        · exact ⟨_, congrArg (stored k saving.signingSecret) hcurrent⟩
        · exact ⟨_, congrArg (stored k saving.signingSecretPrevious) hprevious⟩

end Workers

/-! ## The law of the window -/

section Law

variable {ι : Type} [DecidableEq ι] {key : Option String} {k : F.Key} {lib : Primitives}
  {settings : Settings} {lower : String → String} {roles : ι → Role F} {s : Store}
  {c d : Config together ι Store Finish}

/-- The request that an operation sends. -/
def requestOf : together.Op → Option Request
  | .inl (.post request) => some request
  | _ => none

theorem eq_of_requestOf {op : together.Op} {request : Request} (h : request ∈ requestOf op) :
    op = .inl (.post request) := by
  unfold requestOf at h
  split at h
  · cases h
    rfl
  · cases h

/-- A save finds the secrets that its run has loaded. -/
def SavesInTurn (stored : EndpointRow) (found : Option EndpointRow) (op : together.Op) : Prop :=
  (rowOf op).isSome → ∀ row ∈ found, SameSecrets row stored

/-- An edit keeps the window. -/
def Role.KeepsSecret (k : F.Key) (settings : Settings) (w : Window) (op : together.Op) :
    Role F → Prop
  | .edits edit => (rowOf op).isSome → w.Keeps settings k edit.newSecret
  | .delivers _ => True

/-- An attempt that sends its request while there is a secret to protect has loaded it, and no
custom header takes the place of the signature. -/
def Role.SendsSecret (k : F.Key) (lib : Primitives) (lower : String → String) (settings : Settings)
    (w : Window) (stored : EndpointRow) (found : Option EndpointRow) (op : together.Op) :
    Role F → Prop
  | .delivers job => ∀ request ∈ requestOf op, ∀ P ∈ w.before, P ≠ "" → ∀ row ∈ found,
      loaded k row.signingSecretPrevious = loaded k stored.signingSecretPrevious ∧
        Unshadowed lower (update (fixedHeaders job.correlationId) row.customHeaders.members)
          (settings.signatureHeader ++ "-Previous")
          (some (.str (signPayload lib request.data P)))
  | .edits _ => True

/-- No two edits overlap. -/
def InTurn (c : Config together ι Store Finish) (label : Label (Outside × EditOutside) Nat ι) :
    Prop :=
  ∀ entry ∈ System.performed (Handler.sum database editEndpoint) c label,
    SavesInTurn c.store.endpoint (loadedBy entry.1 c.log) entry.2.op

/-- An operation keeps the window that the operations before it have led to. -/
def KeepsWindow (k : F.Key) (lib : Primitives) (lower : String → String) (settings : Settings)
    (roles : ι → Role F) (init : EndpointRow) (c : Config together ι Store Finish)
    (label : Label (Outside × EditOutside) Nat ι) : Prop :=
  ∀ entry ∈ System.performed (Handler.sum database editEndpoint) c label,
    let w := Window.after settings k init c.log
    (roles entry.1).KeepsSecret k settings w entry.2.op ∧
      (roles entry.1).SendsSecret k lib lower settings w c.store.endpoint
        (loadedBy entry.1 c.log) entry.2.op

/-- A request carries a second signature with the secret that was in effect before, if there is
one. -/
def CarriesPrevious (k : F.Key) (lib : Primitives) (lower : String → String) (settings : Settings)
    (init : EndpointRow) (before : List (ι × Event together)) (entry : ι × Event together) : Prop :=
  ∀ request ∈ requestOf entry.2.op,
    ∀ P ∈ (Window.after settings k init before).before, P ≠ "" →
      request.sent lower (settings.signatureHeader ++ "-Previous") =
        some (.str (signPayload lib request.data P))

omit [DecidableEq ι] in
theorem after_snoc (init : EndpointRow) (log : List (ι × Event together)) (i : ι)
    (ev : Event together) :
    Window.after settings k init (log ++ [(i, ev)]) = match ev.op with
      | .inr (.saveRow row) => (Window.after settings k init log).next settings k row
      | _ => Window.after settings k init log := by
  simp only [Window.after, List.foldl_append, List.foldl_cons, List.foldl_nil]

/-- The window is that of the stored secrets, and the secret that was replaced last is in the
previous slot. -/
structure Protected (k : F.Key) (w : Window) (stored : EndpointRow) : Prop where
  row : SameSecrets w.row stored
  previous : ∀ P ∈ w.before, P ≠ "" → loaded k stored.signingSecretPrevious = P

/-- An edit that keeps the window keeps the secret that is to be protected. -/
theorem Protected.saved (hF : F.Lawful) {w : Window} {stored' row saved : EndpointRow}
    (h : Protected k w stored') {edit : SecretEdit F} (hrow : SameSecrets row stored')
    (hsaves : edit.Saves k row saved) (hkeeps : w.Keeps settings k edit.newSecret) :
    Protected k (w.next settings k saved) saved := by
  obtain ⟨⟨nonce, hcurrent⟩, nonce', hprevious⟩ := hsaves
  have hkept : (loadedRow k row).kept = (loadedRow k w.row).kept := by
    simp only [WebhookEndpoint.kept, loadedRow, hrow.1, hrow.2, h.row.1, h.row.2]
  have hslot : loaded k saved.signingSecretPrevious = restored k (loadedRow k w.row).kept := by
    rw [← loaded_stored_eq hF k nonce', ← hkept, ← hprevious]
  have heffective : Window.effective settings k ⟨saved, none⟩ =
      { loadedRow k w.row with signingSecret := restored k edit.newSecret }.effective settings := by
    rw [← loaded_stored_eq hF k nonce, ← hcurrent]
    rfl
  refine ⟨⟨rfl, rfl⟩, fun P hP hne => ?_⟩
  rw [hslot]
  simp only [Window.Keeps, ← heffective] at hkeeps
  simp only [Window.next] at hP
  split at hP
  · -- nothing has changed, so there is still the same secret to protect
    next hsame =>
    rw [if_pos hsame] at hkeeps
    rcases hkeeps with hnone | ⟨hblank, hplain⟩
    · exact absurd (hnone P hP) hne
    · rw [WebhookEndpoint.kept, if_pos hblank, restored, if_neg hplain]
      exact (congrArg (loaded k) h.row.2).trans (h.previous P hP hne)
  · next hchanged =>
    rw [if_neg hchanged] at hkeeps
    obtain rfl := Option.some.inj hP
    rcases hkeeps with hempty | ⟨hkept, hplain⟩
    · exact absurd hempty hne
    · rw [restored, if_neg hplain]
      exact hkept

/-- The statements of deliveries leave the secrets. -/
theorem secrets_respond (outside : Outside) (op : Op) (s : Store) :
    SameSecrets s.endpoint (respond outside op s).2.endpoint := by
  cases op with
  | setHalfOpen =>
    rw [respond]
    split <;> exact ⟨rfl, rfl⟩
  | _ => exact ⟨rfl, rfl⟩

/-- In every interleaving deliveries send what they have loaded, and rotations save it. -/
theorem conduct_together (hbackend : settings.secretBackend = "database")
    (hkey : getFernet F key = .ok k)
    (hrotates : ∀ i edit, roles i = .edits edit → edit.Rotates) {pk : Nat}
    {G : Config together ι Store Finish → Label (Outside × EditOutside) Nat ι → Prop}
    (h : (sharing key pk lib settings roles).Reaches G
      (beginTogether key pk lib settings roles s) c) (i : ι) :
    (c.program i).Follows ((roles i).conduct key k lib settings) (fun _ _ => True)
      (loadedBy i c.log) := by
  refine h.follows (D := fun i => (roles i).conduct key k lib settings) (l := fun _ => none) rfl
    (fun i => ?_) (fun i loaded value p _ hagain => ?_) i
  · change ((roles i).program F key pk lib settings).Follows _ _ _
    cases hrole : roles i with
    | delivers job => exact follows_delivery_conduct hbackend pk job 0 none
    | edits edit => exact follows_edit_conduct hbackend hkey (hrotates i edit hrole) pk none
  · obtain ⟨job, retries, hrole, rfl⟩ := Role.again_eq_some F key pk hagain
    rw [hrole]
    exact follows_delivery_conduct hbackend pk job retries loaded

/-- What an operation of a delivery keeps. -/
theorem Protected.delivered {w : Window} {s : Store} (h : Protected k w s.endpoint)
    (outside : Outside) (op : Op) : Protected k w (respond outside op s).2.endpoint := by
  obtain ⟨hcurrent, hprevious⟩ := secrets_respond outside op s
  refine ⟨⟨h.row.1.trans hcurrent, h.row.2.trans hprevious⟩, ?_⟩
  rw [← hprevious]
  exact h.previous

/-- A request that is built from a copy with the secret to be protected in its previous slot. -/
theorem carriesPrevious_ownRequest (hlower : ∀ name, lower name ≠ lower (name ++ "-Previous"))
    {copy : WebhookEndpoint} {P : String} (hslot : copy.signingSecretPrevious = P) (hne : P ≠ "")
    {correlationId : String} {payload : Payload}
    (hunshadowed : Unshadowed lower (update (fixedHeaders correlationId) copy.customHeaders.members)
      (settings.signatureHeader ++ "-Previous")
      (some (.str (signPayload lib (serializePayload lib payload) P)))) :
    (copy.ownRequest lib settings correlationId payload).sent lower
        (settings.signatureHeader ++ "-Previous") =
      some (.str (signPayload lib (serializePayload lib payload) P)) := by
  have hsignature : signatureOf lib (serializePayload lib payload) copy.effectivePreviousSecret =
      some (.str (signPayload lib (serializePayload lib payload) P)) := by
    rw [signatureOf, WebhookEndpoint.effectivePreviousSecret, hslot, if_pos hne]
  have hsent := (sent_previous_iff lib (hlower settings.signatureHeader)
    (nodup_baseHeaders correlationId copy.customHeaders.members) copy payload
    (copy.effective settings)).mpr (hsignature ▸ hunshadowed)
  exact hsent.trans hsignature

/-- One operation of a run that keeps the window. -/
theorem protected_advance (hF : F.Lawful) {i : ι} {outside : Outside × EditOutside}
    {op : together.Op} {rest : together.Answer op → Program together Finish}
    (hp : c.program i = .call op rest)
    (hpermits : ((roles i).conduct key k lib settings).permits (loadedBy i c.log) op)
    (hplaced : Placed s.endpoint.pk c) (hturn : InTurn c (.run i outside))
    (hkeeps : KeepsWindow k lib lower settings roles s.endpoint c (.run i outside))
    (h : Protected k (Window.after settings k s.endpoint c.log) c.store.endpoint) :
    Protected k (Window.after settings k s.endpoint
        (c.log ++ [(i, ⟨op, (Handler.sum database editEndpoint outside op c.store).1⟩)]))
      (Handler.sum database editEndpoint outside op c.store).2.endpoint := by
  simp only [InTurn, KeepsWindow, System.performed_run hp, Option.mem_some_iff, forall_eq']
    at hturn hkeeps
  rw [after_snoc]
  cases op with
  | inl op => exact h.delivered outside.1 op
  | inr op =>
    change Protected k _ (editEndpoint outside.2 op c.store).2.endpoint
    rw [editEndpoint_endpoint]
    cases op with
    | saveRow saved =>
      obtain ⟨edit, hrole, row, hrow, hpk, hsaves⟩ := hpermits
      rw [hrole] at hkeeps
      have hsame : saved.pk = c.store.endpoint.pk :=
        hpk.trans ((hplaced.loaded i row hrow).trans hplaced.stored.symm)
      dsimp only
      rw [if_pos hsame]
      exact h.saved hF (hturn rfl row hrow) hsaves (hkeeps.1 rfl)
    | saveSecrets saved => exact hpermits.elim
    | _ => exact h

/-- The rotation window protects the receiver in every run, whatever edits and attempts are
interleaved, that keeps it: every request carries a second signature with the secret that was in
effect before, if there is one. -/
theorem rotation_window_kept (hF : F.Lawful) (lib : Primitives)
    (hlower : ∀ name, lower name ≠ lower (name ++ "-Previous")) (settings : Settings)
    (hbackend : settings.secretBackend = "database") (key : Option String)
    (hkey : getFernet F key = .ok k) (roles : ι → Role F)
    (hrotates : ∀ i edit, roles i = .edits edit → edit.Rotates) (s : Store)
    (h : (sharing key s.endpoint.pk lib settings roles).Reaches
      (fun c label => InTurn c label ∧ KeepsWindow k lib lower settings roles s.endpoint c label)
      (beginTogether key s.endpoint.pk lib settings roles s) c) :
    Justified (CarriesPrevious k lib lower settings s.endpoint) c.log := by
  have hkept : Protected k (Window.after settings k s.endpoint c.log) c.store.endpoint ∧
      Justified (CarriesPrevious k lib lower settings s.endpoint) c.log := by
    refine h.invariant (I := fun c => Protected k (Window.after settings k s.endpoint c.log)
      c.store.endpoint ∧ Justified (CarriesPrevious k lib lower settings s.endpoint) c.log)
      ⟨⟨⟨rfl, rfl⟩, nofun⟩, ?_⟩ ?_
    · intro before entry later hlog
      simp [beginTogether] at hlog
    · rintro c label d hr ⟨hprotected, hcarries⟩ ⟨hturn, hkeeps⟩ hs
      cases label with
      | run i outside =>
        obtain ⟨op, rest, hp, rfl⟩ := System.step_run.mp hs
        have hfollows := conduct_together hbackend hkey hrotates hr i
        rw [hp] at hfollows
        refine ⟨protected_advance hF hp hfollows.1 (placed_of_reaches hr) hturn hkeeps hprotected,
          justified_snoc.mpr ⟨hcarries, ?_⟩⟩
        intro request hrequest P hP hne
        obtain rfl := eq_of_requestOf hrequest
        obtain ⟨job, hrole, row, hrow, copy, hload, payload, rfl⟩ := hfollows.1
        simp only [KeepsWindow, System.performed_run hp, Option.mem_some_iff, forall_eq', hrole]
          at hkeeps
        obtain ⟨hcurrent, hunshadowed⟩ := hkeeps.2 _ rfl P hP hne row hrow
        obtain rfl := Except.ok.inj ((loadRow_ok hkey row).symm.trans hload)
        exact carriesPrevious_ownRequest hlower
          (hcurrent.trans (hprotected.previous P hP hne)) hne hunshadowed
      | relaunch i =>
        obtain ⟨_, _, -, -, rfl⟩ := System.step_relaunch.mp hs
        exact ⟨hprotected, hcarries⟩
      | environment duration =>
        obtain rfl := System.step_environment.mp hs
        exact ⟨hprotected, hcarries⟩
  exact hkept.2

end Law

/-! ## A site default that does not move, and a secret that does -/

section Plain

variable {k : F.Key} {lib : Primitives} {lower : String → String} {settings : Settings}

/-- An attempt has loaded the secret to be protected, and no custom header has the name of the
signature. -/
def Role.SendsPlainly (k : F.Key) (settings : Settings) (w : Window) (stored : EndpointRow)
    (found : Option EndpointRow) (op : together.Op) : Role F → Prop
  | .delivers job => (requestOf op).isSome → ∀ P ∈ w.before, P ≠ "" → ∀ row ∈ found,
      loaded k row.signingSecretPrevious = loaded k stored.signingSecretPrevious ∧
        settings.signatureHeader ++ "-Previous" ∉
          keys (update (fixedHeaders job.correlationId) row.customHeaders.members)
  | .edits _ => True

theorem Role.SendsPlainly.sendsSecret {w : Window} {stored : EndpointRow}
    {found : Option EndpointRow} {op : together.Op} {role : Role F}
    (h : role.SendsPlainly k settings w stored found op) :
    role.SendsSecret k lib lower settings w stored found op := by
  cases role with
  | delivers job =>
    intro request hrequest P hP hne row hrow
    obtain ⟨hcurrent, hname⟩ := h (Option.isSome_of_mem hrequest) P hP hne row hrow
    exact ⟨hcurrent, fun hmem => absurd hmem hname⟩
  | edits edit => trivial

variable {ι : Type} [DecidableEq ι]

/-- A step that keeps the window, where the values of the custom headers do not matter. -/
def KeepsPlainly (k : F.Key) (settings : Settings) (roles : ι → Role F) (init : EndpointRow)
    (c : Config together ι Store Finish) (label : Label (Outside × EditOutside) Nat ι) : Prop :=
  ∀ entry ∈ System.performed (Handler.sum database editEndpoint) c label,
    let w := Window.after settings k init c.log
    let found := loadedBy entry.1 c.log
    SavesInTurn c.store.endpoint found entry.2.op ∧
      (roles entry.1).KeepsSecret k settings w entry.2.op ∧
      (roles entry.1).SendsPlainly k settings w c.store.endpoint found entry.2.op

theorem KeepsPlainly.keepsWindow {roles : ι → Role F} {init : EndpointRow}
    {c : Config together ι Store Finish} {label : Label (Outside × EditOutside) Nat ι}
    (h : KeepsPlainly k settings roles init c label) :
    InTurn c label ∧ KeepsWindow k lib lower settings roles init c label :=
  ⟨fun entry hentry => (h entry hentry).1,
    fun entry hentry => ⟨(h entry hentry).2.1, (h entry hentry).2.2.sendsSecret⟩⟩

instance (w : Window) (secret : String) : Decidable (w.Keeps settings k secret) :=
  inferInstanceAs (Decidable (if _ = _ then _ ∨ _ else _ ∨ _))

instance (stored : EndpointRow) (found : Option EndpointRow) (op : together.Op) :
    Decidable (SavesInTurn stored found op) :=
  inferInstanceAs (Decidable ((rowOf op).isSome → ∀ row ∈ found, _ ∧ _))

instance (w : Window) (op : together.Op) (role : Role F) :
    Decidable (role.KeepsSecret k settings w op) :=
  match role with
  | .edits edit =>
    inferInstanceAs (Decidable ((rowOf op).isSome → w.Keeps settings k edit.newSecret))
  | .delivers _ => isTrue trivial

instance (w : Window) (stored : EndpointRow) (found : Option EndpointRow) (op : together.Op)
    (role : Role F) : Decidable (role.SendsPlainly k settings w stored found op) :=
  match role with
  | .delivers job => inferInstanceAs (Decidable ((requestOf op).isSome →
      ∀ P ∈ w.before, P ≠ "" → ∀ row ∈ found,
        loaded k row.signingSecretPrevious = loaded k stored.signingSecretPrevious ∧
          settings.signatureHeader ++ "-Previous" ∉
            keys (update (fixedHeaders job.correlationId) row.customHeaders.members)))
  | .edits _ => isTrue trivial

instance (roles : ι → Role F) (init : EndpointRow) (c : Config together ι Store Finish)
    (label : Label (Outside × EditOutside) Nat ι) :
    Decidable (KeepsPlainly k settings roles init c label) :=
  inferInstanceAs (Decidable (∀ entry ∈ System.performed _ _ _,
    SavesInTurn c.store.endpoint (loadedBy entry.1 c.log) entry.2.op ∧
      (roles entry.1).KeepsSecret k settings (Window.after settings k init c.log) entry.2.op ∧
      (roles entry.1).SendsPlainly k settings (Window.after settings k init c.log)
        c.store.endpoint (loadedBy entry.1 c.log) entry.2.op))

end Plain

/-- A delivery, and `rotate_signing_secret` with a file that holds this secret. -/
def deliveryAndSecret (secret : String) : Bool → Role Fernet.padded
  | true => .delivers emptyJob
  | false => .edits (.command exampleSaving
      { endpointId := 1, newSecretFile := some ⟨"new.txt", some secret⟩ })

theorem rotates_deliveryAndSecret {secret : String} (h : strip secret ≠ "") (i : Bool)
    (edit : SecretEdit Fernet.padded) (hi : deliveryAndSecret secret i = .edits edit) :
    edit.Rotates := by
  cases i with
  | true => cases hi
  | false =>
    cases hi
    exact ⟨h, rfl, rfl⟩

/-- The next operation of the delivery or of the command. -/
def takeTurn (statusCode : Nat) (i : Bool) : Label (Outside × EditOutside) Nat Bool :=
  .run i ({ outcome := .response statusCode "" }, {})

/-- The command runs, and then the delivery is attempted. -/
def editThenAttempt : List (Label (Outside × EditOutside) Nat Bool) :=
  [takeTurn 200 false, takeTurn 200 false, takeTurn 200 true, takeTurn 200 true, takeTurn 200 true]

/-- The command runs during an attempt that is to be retried, and saves before it is. -/
def editBetween : List (Label (Outside × EditOutside) Nat Bool) :=
  [takeTurn 503 true, takeTurn 503 true, takeTurn 503 false, takeTurn 503 true, takeTurn 503 true,
    takeTurn 503 true, takeTurn 503 true, takeTurn 503 false, .relaunch true, takeTurn 503 true,
    takeTurn 503 true, takeTurn 503 true]

def exampleFernetKey : Fernet.padded.Key := 'k'

/-- The secret to be protected when the last operation of a log, a request, is performed, and
whether it is sent with a second signature. -/
def lastRequest (init : EndpointRow) (log : List (Bool × Event together)) :
    Option (Option String × Bool) :=
  log.getLast?.bind fun entry => (requestOf entry.2.op).map fun request =>
    ((Window.after siteSettings exampleFernetKey init log.dropLast).before,
      (request.sent asciiLower "X-OpenEdX-Webhook-Signature-Previous").isSome)

/-- The site's default secret was in effect before the command, and is not signed with. -/
theorem default_secret_not_kept :
    (∀ i edit, deliveryAndSecret "hunter2" i = .edits edit → edit.Rotates) ∧
      ∃ c, (sharing exampleKey 1 emptyLib siteSettings (deliveryAndSecret "hunter2")).schedule
          (beginTogether exampleKey 1 emptyLib siteSettings (deliveryAndSecret "hunter2")
            { endpoint := newEndpoint }) editThenAttempt = some c ∧
        lastRequest newEndpoint c.log = some (some "site", false) :=
  ⟨rotates_deliveryAndSecret (by decide), Option.map_eq_some_iff.mp
    (show _ = some (some (some "site", false)) by decide +kernel)⟩

/-- The command runs between two attempts of a delivery, and the second one carries both
signatures. -/
theorem rotation_window_kept_between :
    ∃ c, (sharing exampleKey 1 emptyLib siteSettings (deliveryAndSecret "next")).schedule
        (beginTogether exampleKey 1 emptyLib siteSettings (deliveryAndSecret "next")
          { endpoint := signingEndpoint "hunter2" }) editBetween = some c ∧
      lastRequest (signingEndpoint "hunter2") c.log = some (some "hunter2", true) ∧
      Justified (CarriesPrevious exampleFernetKey emptyLib asciiLower siteSettings
        (signingEndpoint "hunter2")) c.log := by
  have hkeeps : (sharing exampleKey 1 emptyLib siteSettings (deliveryAndSecret "next")).Each
      (KeepsPlainly exampleFernetKey siteSettings (deliveryAndSecret "next")
        (signingEndpoint "hunter2"))
      (beginTogether exampleKey 1 emptyLib siteSettings (deliveryAndSecret "next")
        { endpoint := signingEndpoint "hunter2" }) editBetween := by decide +kernel
  obtain ⟨c, hc, hlast⟩ := Option.map_eq_some_iff.mp
    (show ((sharing exampleKey 1 emptyLib siteSettings (deliveryAndSecret "next")).schedule
        (beginTogether exampleKey 1 emptyLib siteSettings (deliveryAndSecret "next")
          { endpoint := signingEndpoint "hunter2" }) editBetween).map
        (fun c => lastRequest (signingEndpoint "hunter2") c.log) =
      some (some (some "hunter2", true)) by decide +kernel)
  refine ⟨c, hc, hlast, ?_⟩
  exact rotation_window_kept Fernet.padded_lawful emptyLib asciiLower_ne siteSettings rfl exampleKey
    rfl (deliveryAndSecret "next") (rotates_deliveryAndSecret (by decide))
    { endpoint := signingEndpoint "hunter2" }
    ((hkeeps.mono (fun c l d _ h _ => h.keepsWindow) .refl).reaches hc .refl)

end WebhookRelay
