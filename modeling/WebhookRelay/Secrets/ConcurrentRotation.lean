import WebhookRelay.Library.Pool
import WebhookRelay.Secrets.KeyRotation

/-!
# Both rotations at once

`rotate_encryption_key` keeps the instances that it has loaded until it saves them. A new
secret that `rotate_signing_secret` stores in between is overwritten with the old one, and
both commands report success.

## Main results

* `new_secret_survives` — in runs without such a save the new secret can be read under one of
  the two keys.
* `new_secret_overwritten` — a run in which it is lost.
-/

namespace WebhookRelay

open Interleaving System

variable {F : Fernet}

inductive RotateCommand where
  | encryptionKey | signingSecret
  deriving DecidableEq, Repr

/-- One run of each command. -/
structure Rotations (F : Fernet) where
  old : LabelledKey
  new : LabelledKey
  dryRun : Bool := false
  keySaving : Nat → Saving F
  settings : Settings := {}
  /-- the encryption key that `rotate_signing_secret` is configured with -/
  key : Option String
  options : RotateOptions
  saving : Saving F

namespace Rotations

/-- The primary key of the endpoint whose secret is rotated. -/
abbrev pk (r : Rotations F) : Nat := r.options.endpointId

def program (r : Rotations F) : RotateCommand → Edit Unit
  | .encryptionKey => rotateEncryptionKey F r.keySaving r.old r.new r.dryRun
  | .signingSecret => rotateSigningSecret F r.settings r.key r.saving r.options

end Rotations

/-- What the commands have done, in order. -/
abbrev RotateLog := List (RotateCommand × Event editing)

abbrev Rotating := Config editing RotateCommand (List EndpointRow) (Except EditError Unit)

/-- Two processes on one table; each of them runs once. -/
def rotating : System editing EditOutside Empty RotateCommand (List EndpointRow)
    (Except EditError Unit) where
  handle := editTable
  environment _ table := table
  relaunch _ _ := none

def Rotations.start (r : Rotations F) (table : List EndpointRow) : Rotating where
  store := table
  program := r.program
  log := []

/-! ## The order of loads and saves -/

namespace RotateLog

/-- `rotate_encryption_key` has loaded the table. -/
def Loaded (log : RotateLog) : Prop := ∃ ev ∈ log, ev.1 = .encryptionKey ∧ ev.2.op = .allRows

/-- `rotate_signing_secret` has saved the row. -/
def Saved (log : RotateLog) : Prop :=
  ∃ ev ∈ log, ev.1 = .signingSecret ∧ ∃ row, ev.2.op = .saveRow row

/-- The row has been saved after the table was loaded. -/
def Stale (log : RotateLog) : Prop :=
  Saved log ∧ ∃ earlier, earlier <+: log ∧ Loaded earlier ∧ ¬ Saved earlier

variable {log : RotateLog} {entry : RotateCommand × Event editing}

theorem loaded_snoc : Loaded (log ++ [entry]) ↔
    Loaded log ∨ entry.1 = .encryptionKey ∧ entry.2.op = .allRows := by
  simp [Loaded, or_and_right, exists_or]

theorem saved_snoc : Saved (log ++ [entry]) ↔
    Saved log ∨ entry.1 = .signingSecret ∧ ∃ row, entry.2.op = .saveRow row := by
  simp [Saved, or_and_right, exists_or]

theorem Stale.snoc (h : Stale log) : Stale (log ++ [entry]) := by
  obtain ⟨hsaved, earlier, hearlier, h⟩ := h
  exact ⟨saved_snoc.mpr (.inl hsaved), earlier, hearlier.trans (List.prefix_append _ _), h⟩

/-- Saving a row that the other command has loaded leaves it with a stale instance. -/
theorem stale_of_save (hloaded : Loaded log) (hnot : ¬ Saved log)
    (hentry : entry.1 = .signingSecret ∧ ∃ row, entry.2.op = .saveRow row) :
    Stale (log ++ [entry]) :=
  ⟨saved_snoc.mpr (.inr hentry), log, List.prefix_append _ _, hloaded, hnot⟩

end RotateLog

open RotateLog

/-! ## Careful runs -/

/-- Under the old key the row is not loaded with a blank secret and another one. -/
def LoadsWhole (k : F.Key) (row : EndpointRow) : Prop :=
  (∃ secret, Reads k row.signingSecret secret) ∨ ReadsNothing k row

/-- A step that can do no harm to a new secret: `rotate_encryption_key` does not save a stale
instance of the row, and the row that it loads after a save is loaded as a whole. -/
def Careful (k : F.Key) (pk : Nat) (c : Rotating) (label : Label EditOutside Empty RotateCommand) :
    Prop :=
  ∀ ev ∈ performed editTable c label, ev.1 = .encryptionKey →
    (ev.2.op = .allRows → Saved c.log → ∀ row ∈ c.store, row.pk = pk → LoadsWhole k row) ∧
      ∀ row, ev.2.op = .saveSecrets row → row.pk = pk → ¬ Stale c.log

/-- If both commands have reported success, the stored secret can be read under one of the two
keys, and it is the new one. -/
def NewSecretStored (k k' : F.Key) (pk : Nat) (secret : String) (c : Rotating) : Prop :=
  (∀ command, c.program command = .ret (.ok ())) →
    ∃ row, c.store.find? (fun row => row.pk = pk) = some row ∧
      (Reads k row.signingSecret secret ∨ Reads k' row.signingSecret secret)

/-! ## What the commands do -/

section Commands

variable {k k' : F.Key}

/-- On usable keys `rotate_encryption_key` loads the table and saves some of its instances. -/
theorem rotateEncryptionKey_call (hF : F.Lawful) {old new : LabelledKey}
    (hold : F.parse old.key = some k) (hnew : F.parse new.key = some k')
    (saving : Nat → Saving F) (dryRun : Bool) :
    ∃ chosen : List EndpointRow → List EndpointRow,
      (∀ rows, ∀ row ∈ chosen rows, row ∈ rows ∧ hasSecret (loadedRow k row)) ∧
      rotateEncryptionKey F saving old new dryRun = .call .allRows fun rows =>
        saveAll F new.key saving ((chosen rows).map (loadedRow k)) := by
  cases dryRun with
  | false =>
    exact ⟨fun rows => rows.filter fun row => hasSecret (loadedRow k row),
      fun rows row hrow => List.mem_filter.mp hrow, rotateEncryptionKey_eq hF hold hnew⟩
  | true =>
    exact ⟨fun _ => [], nofun, rotateEncryptionKey_load hF hold hnew saving true⟩

theorem saveAll_cons {newText : String} (hnew : getFernet F (some newText) = .ok k')
    (saving : Nat → Saving F) (endpoint : WebhookEndpoint) (rest : List WebhookEndpoint) :
    saveAll F newText saving (endpoint :: rest) = .ret (.error .databaseError) ∨
      saveAll F newText saving (endpoint :: rest) = .call (.saveSecrets { endpoint with
        signingSecret := stored k' (saving endpoint.pk).signingSecret endpoint.signingSecret
        signingSecretPrevious := stored k' (saving endpoint.pk).signingSecretPrevious
          endpoint.signingSecretPrevious }) fun affected =>
            if affected then saveAll F newText saving rest else .ret (.error .databaseError) := by
  simp only [saveAll, prepareRow_ok hnew]
  split
  · exact .inl rfl
  · exact .inr rfl

/-- The row that `rotate_signing_secret` saves. -/
theorem rotateSigningSecret_call {settings : Settings}
    (hbackend : settings.secretBackend = "database")
    {key : Option String} (hkey : getFernet F key = .ok k) (saving : Saving F)
    {options : RotateOptions} {secret : String} {file : SecretFile}
    (hfile : options.newSecretFile = some file) (hset : file.contents.map strip = some secret) :
    ∃ rest, rotateSigningSecret F settings key saving options =
        .call (.getRow options.endpointId) rest ∧
      ∀ answer : Option EndpointRow, (∃ e, rest answer = .ret (.error e)) ∨
        ∃ row, answer = some row ∧ ∃ saved,
          rest answer = .call (.saveRow saved) (fun _ => .ret (.ok ())) ∧ saved.pk = row.pk ∧
          saved.signingSecret = stored k saving.signingSecret secret := by
  have hdatabase : getSecretBackend settings = .ok .database := by simp [getSecretBackend, hbackend]
  refine ⟨_, rfl, fun answer => ?_⟩
  cases answer with
  | none => exact .inl ⟨_, rfl⟩
  | some row =>
    simp only [loadRow_ok hkey, hfile, hdatabase, setNewSecret, hset, Option.isNone_some,
      Bool.false_and, Bool.false_eq_true, if_false]
    by_cases hne : secret = ""
    · exact .inl ⟨_, by rw [if_pos hne, andThen_error]⟩
    · have hsave : ∀ endpoint : WebhookEndpoint, endpoint.pk = row.pk →
          endpoint.signingSecret = secret →
          (∃ e, saveEndpoint F key saving endpoint = .ret (.error e)) ∨ ∃ saved,
            saveEndpoint F key saving endpoint = .call (.saveRow saved) (fun _ => .ret (.ok ())) ∧
            saved.pk = row.pk ∧ saved.signingSecret = stored k saving.signingSecret secret := by
        rintro endpoint hpk rfl
        rcases saveEndpoint_cases hkey saving endpoint with hrefused | hsaved
        · exact .inl ⟨_, hrefused⟩
        · exact .inr ⟨_, hsaved, hpk, rfl⟩
      simp only [if_neg hne, ne_eq, not_true, decide_false, Bool.and_false, Bool.false_eq_true,
        if_false, SecretBackend.setSecret, andThen_ok]
      refine (hsave _ ?_ (clearPrevious_signingSecret _ _)).imp_right fun hsaved =>
        ⟨row, rfl, hsaved⟩
      exact (clearPrevious_pk _ _).trans (keepPrevious_pk _ _ _)

end Commands

/-! ## The invariant -/

section Invariant

variable (r : Rotations F) (k k' : F.Key) (secret : String)

/-- How far `rotate_encryption_key` is. It saves a stale instance of the row or, once the other
command has saved it, none with another secret. -/
inductive KeyStage (c : Rotating) : Prop where
  | start : c.program .encryptionKey = r.program .encryptionKey → KeyStage c
  | saving (instances : List WebhookEndpoint) :
      c.program .encryptionKey = saveAll F r.new.key r.keySaving instances → Loaded c.log →
      (Saved c.log → Stale c.log ∨
        ∀ endpoint ∈ instances, endpoint.pk = r.pk → endpoint.signingSecret = secret) → KeyStage c
  | failed (e : EditError) : c.program .encryptionKey = .ret (.error e) → KeyStage c

/-- The row is there, and it has the new secret under one of the keys. -/
structure HasNewSecret (table : List EndpointRow) : Prop where
  present : ∃ row ∈ table, row.pk = r.pk
  reads : ∀ row ∈ table, row.pk = r.pk →
    Reads k row.signingSecret secret ∨ Reads k' row.signingSecret secret

/-- How far `rotate_signing_secret` is. -/
inductive SecretStage (c : Rotating) : Prop where
  | start : c.program .signingSecret = r.program .signingSecret → ¬ Saved c.log → SecretStage c
  | saving (saved : EndpointRow) :
      c.program .signingSecret = .call (.saveRow saved) (fun _ => .ret (.ok ())) →
      ¬ Saved c.log → saved.pk = r.pk →
      Reads k saved.signingSecret secret ∨ Reads k' saved.signingSecret secret → SecretStage c
  | done : c.program .signingSecret = .ret (.ok ()) → Saved c.log →
      HasNewSecret r k k' secret c.store → SecretStage c
  | failed (e : EditError) : c.program .signingSecret = .ret (.error e) → ¬ Saved c.log →
      SecretStage c

variable {r k k' secret} {c d : Rotating}

/-- A step of the other command leaves `rotate_encryption_key` where it is. -/
theorem KeyStage.frame (h : KeyStage r secret c)
    (hprogram : d.program .encryptionKey = c.program .encryptionKey)
    (hloaded : Loaded c.log → Loaded d.log) (hstale : Stale c.log → Stale d.log)
    (hsaved : Loaded c.log → Saved d.log → Saved c.log ∨ Stale d.log) : KeyStage r secret d := by
  cases h with
  | start hstart => exact .start (hprogram.trans hstart)
  | failed e hfailed => exact .failed e (hprogram.trans hfailed)
  | saving instances hsaving hload hfresh =>
    refine .saving instances (hprogram.trans hsaving) (hloaded hload) fun hd => ?_
    rcases hsaved hload hd with hc | hd
    · exact (hfresh hc).imp_left hstale
    · exact .inl hd

/-- A step of the other command leaves `rotate_signing_secret` where it is. -/
theorem SecretStage.frame (h : SecretStage r k k' secret c)
    (hprogram : d.program .signingSecret = c.program .signingSecret)
    (hsaved : Saved d.log ↔ Saved c.log)
    (hstore : Saved c.log → HasNewSecret r k k' secret c.store →
      HasNewSecret r k k' secret d.store) : SecretStage r k k' secret d := by
  cases h with
  | start hstart hnot => exact .start (hprogram.trans hstart) (hsaved.not.mpr hnot)
  | saving saved hsaving hnot hpk hreads =>
    exact .saving saved (hprogram.trans hsaving) (hsaved.not.mpr hnot) hpk hreads
  | done hdone hc hnew =>
    exact .done (hprogram.trans hdone) (hsaved.mpr hc) (hstore hc hnew)
  | failed e hfailed hnot => exact .failed e (hprogram.trans hfailed) (hsaved.not.mpr hnot)

/-- What `rotate_signing_secret` has stored when it has saved the row. -/
theorem SecretStage.hasNewSecret (h : SecretStage r k k' secret c) (hsaved : Saved c.log) :
    HasNewSecret r k k' secret c.store := by
  cases h with
  | done _ _ hnew => exact hnew
  | start _ hnot => exact absurd hsaved hnot
  | saving _ _ hnot => exact absurd hsaved hnot
  | failed _ _ hnot => exact absurd hsaved hnot

/-- A row with the new secret that is loaded as a whole is loaded with it, or not at all. -/
theorem loaded_new_secret (hF : F.Lawful) {row : EndpointRow}
    (hreads : Reads k row.signingSecret secret ∨ Reads k' row.signingSecret secret)
    (hwhole : LoadsWhole k row) (hsecret : hasSecret (loadedRow k row)) :
    (loadedRow k row).signingSecret = secret := by
  rcases hwhole with ⟨secret', hreads'⟩ | hnothing
  · have hsame : secret' = secret := hreads.elim (hreads'.unique hF) (hreads'.unique hF)
    exact hsame ▸ hreads'.loaded
  · rw [hasSecret_loadedRow.mpr hnothing] at hsecret
    exact absurd hsecret Bool.false_ne_true

/-- Saving other secrets of a row, or the new one, keeps the new secret. -/
theorem HasNewSecret.saveSecrets {table : List EndpointRow} (h : HasNewSecret r k k' secret table)
    {saved : EndpointRow} (hsaved : saved.pk = r.pk → Reads k' saved.signingSecret secret) :
    HasNewSecret r k k' secret (updateRow saved.pk (withSecretsOf saved) table) := by
  constructor
  · obtain ⟨row, hrow, hpk⟩ := h.present
    refine ⟨_, List.mem_map.mpr ⟨row, hrow, rfl⟩, ?_⟩
    split <;> exact hpk
  · intro row hrow hpk
    obtain ⟨row, hmem, rfl⟩ := List.mem_map.mp hrow
    split at hpk
    · next heq =>
      rw [if_pos heq]
      exact .inr (hsaved (heq.symm.trans hpk))
    · next hne =>
      rw [if_neg hne]
      exact h.reads row hmem hpk

/-- The row that `rotate_signing_secret` saves has the new secret. -/
theorem hasNewSecret_saveRow {saved : EndpointRow} (hpk : saved.pk = r.pk)
    (hreads : Reads k saved.signingSecret secret ∨ Reads k' saved.signingSecret secret)
    (outside : EditOutside) (table : List EndpointRow) :
    HasNewSecret r k k' secret (editTable outside (.saveRow saved) table).2 := by
  simp only [editTable, respondEdit]
  split
  · next hany =>
    obtain ⟨row, hrow, heq⟩ := List.any_eq_true.mp hany
    have heq : row.pk = saved.pk := by simpa using heq
    constructor
    · exact ⟨saved, List.mem_map.mpr ⟨row, hrow, if_pos heq⟩, hpk⟩
    · intro row' hrow' hpk'
      obtain ⟨row, hmem, rfl⟩ := List.mem_map.mp hrow'
      split at hpk'
      · next heq' =>
        rw [if_pos heq']
        exact hreads
      · next hne => exact absurd (hpk'.trans hpk.symm) hne
  · next hnone =>
    constructor
    · exact ⟨saved, by simp, hpk⟩
    · intro row hrow hpk'
      rcases List.mem_append.mp hrow with hrow | hrow
      · refine absurd (List.any_eq_true.mpr ⟨row, hrow, ?_⟩) hnone
        simpa using hpk'.trans hpk.symm
      · obtain rfl := List.mem_singleton.mp hrow
        exact hreads

/-! ## One step -/

section Step

variable (hF : F.Lawful) (hold : F.parse r.old.key = some k) (hnew : F.parse r.new.key = some k')
  (hplain : ¬ Prefixed secret)
include hF hold hnew hplain

/-- A careful step of `rotate_encryption_key`. -/
theorem step_encryptionKey (hkey : KeyStage r secret c) (hsecret : SecretStage r k k' secret c)
    {outside : EditOutside} (hcareful : Careful k r.pk c (.run .encryptionKey outside))
    (hstep : rotating.step c (.run .encryptionKey outside) = some d) :
    KeyStage r secret d ∧ SecretStage r k k' secret d := by
  obtain ⟨op, rest, hp, rfl⟩ := step_run.mp hstep
  have hcareful := hcareful _ (performed_run hp editTable outside) rfl
  have hsame : ∀ ev, Saved (c.log ++ [(.encryptionKey, ev)]) ↔ Saved c.log := fun ev => by
    simp [saved_snoc]
  have hother : Function.update c.program .encryptionKey (rest (editTable outside op c.store).1)
      .signingSecret = c.program .signingSecret := Function.update_of_ne (by decide) _ _
  cases hkey with
  | failed e hfailed => cases hp.symm.trans hfailed
  | start hstart =>
    obtain ⟨chosen, hchosen, hcall⟩ :=
      rotateEncryptionKey_call hF hold hnew r.keySaving r.dryRun
    cases hp.symm.trans (hstart.trans hcall)
    refine ⟨.saving ((chosen (outside.order c.store)).map (loadedRow k))
        (by simp [advance, rotating, editTable, respondEdit])
        (loaded_snoc.mpr (.inr ⟨rfl, rfl⟩)) ?_,
      hsecret.frame hother (hsame _) fun _ hnew => hnew⟩
    intro hsaved
    have hsaved := (hsame _).mp hsaved
    refine .inr fun endpoint hendpoint hpk => ?_
    obtain ⟨row, hrow, rfl⟩ := List.mem_map.mp hendpoint
    obtain ⟨hrow, hhas⟩ := hchosen _ row hrow
    have hrow : row ∈ c.store := (outside.order_perm c.store).subset hrow
    exact loaded_new_secret hF ((hsecret.hasNewSecret hsaved).reads row hrow hpk)
      (hcareful.1 rfl hsaved row hrow hpk) hhas
  | saving instances hsaving hload hfresh =>
    cases instances with
    | nil => cases hp.symm.trans hsaving
    | cons endpoint instances =>
      have hsaves := (saveAll_cons (getFernet_parse hF hnew) r.keySaving endpoint
        instances).resolve_left (by
          intro hrefused
          cases hp.symm.trans (hsaving.trans hrefused))
      cases hp.symm.trans (hsaving.trans hsaves)
      have hreads : Saved c.log → endpoint.pk = r.pk →
          Reads k' (stored k' (r.keySaving endpoint.pk).signingSecret endpoint.signingSecret)
            secret := by
        intro hsaved hpk
        rcases hfresh hsaved with hstale | hfresh
        · exact absurd hstale (hcareful.2 _ rfl hpk)
        · rw [hfresh endpoint List.mem_cons_self hpk]
          exact reads_stored hF hplain k' _
      refine ⟨?_, hsecret.frame hother (hsame _) fun hsaved hnew =>
        hnew.saveSecrets (hreads hsaved)⟩
      cases haffected : (editTable outside (.saveSecrets { endpoint with
          signingSecret := stored k' (r.keySaving endpoint.pk).signingSecret endpoint.signingSecret
          signingSecretPrevious := stored k' (r.keySaving endpoint.pk).signingSecretPrevious
            endpoint.signingSecretPrevious }) c.store).1 with
      | false => exact .failed .databaseError (by simp [advance, rotating, haffected])
      | true =>
        refine .saving instances (by simp [advance, rotating, haffected])
          (loaded_snoc.mpr (.inl hload)) fun hsaved => ?_
        exact (hfresh ((hsame _).mp hsaved)).imp Stale.snoc fun hfresh endpoint hmem =>
          hfresh endpoint (List.mem_cons_of_mem _ hmem)

omit hold hnew in
/-- A step of `rotate_signing_secret`. -/
theorem step_signingSecret (hbackend : r.settings.secretBackend = "database") {k₀ : F.Key}
    (hk : k₀ = k ∨ k₀ = k') (hkey₀ : getFernet F r.key = .ok k₀) {file : SecretFile}
    (hfile : r.options.newSecretFile = some file) (hset : file.contents.map strip = some secret)
    (hkey : KeyStage r secret c) (hsecret : SecretStage r k k' secret c)
    {outside : EditOutside} (hstep : rotating.step c (.run .signingSecret outside) = some d) :
    KeyStage r secret d ∧ SecretStage r k k' secret d := by
  obtain ⟨op, rest, hp, rfl⟩ := step_run.mp hstep
  have hother : Function.update c.program .signingSecret (rest (editTable outside op c.store).1)
      .encryptionKey = c.program .encryptionKey := Function.update_of_ne (by decide) _ _
  have hloaded : ∀ ev, Loaded c.log → Loaded (c.log ++ [(.signingSecret, ev)]) := fun ev h =>
    loaded_snoc.mpr (.inl h)
  cases hsecret with
  | done hdone => cases hp.symm.trans hdone
  | failed e hfailed => cases hp.symm.trans hfailed
  | start hstart hnot =>
    obtain ⟨rest', hcall, hanswer⟩ :=
      rotateSigningSecret_call hbackend hkey₀ r.saving hfile hset
    cases hp.symm.trans (hstart.trans hcall)
    have hunsaved : ∀ answer, ¬ Saved (c.log ++ [(.signingSecret,
        (⟨.getRow r.options.endpointId, answer⟩ : Event editing))]) := by
      intro answer
      simp [saved_snoc, hnot]
    refine ⟨hkey.frame hother (hloaded _) Stale.snoc fun _ hsaved =>
      absurd hsaved (hunsaved _), ?_⟩
    rcases hanswer (editTable outside (.getRow r.options.endpointId) c.store).1 with
      ⟨e, he⟩ | ⟨row, hrow, saved, hcall, hpk, hsaved⟩
    · exact .failed e (by simpa [advance, rotating] using he) (hunsaved _)
    · refine .saving saved (by simpa [advance, rotating] using hcall) (hunsaved _) ?_ ?_
      · have hfound := List.find?_some hrow
        exact hpk.trans (by simpa using hfound)
      · rw [hsaved]
        rcases hk with rfl | rfl
        · exact .inl (reads_stored hF hplain _ _)
        · exact .inr (reads_stored hF hplain _ _)
  | saving saved hsaving hnot hpk hreads =>
    cases hp.symm.trans hsaving
    have hentry : ∀ answer, Saved (c.log ++ [(.signingSecret,
        (⟨.saveRow saved, answer⟩ : Event editing))]) := fun answer =>
      saved_snoc.mpr (.inr ⟨rfl, saved, rfl⟩)
    refine ⟨hkey.frame hother (hloaded _) Stale.snoc fun hload _ =>
      .inr (stale_of_save hload hnot ⟨rfl, saved, rfl⟩), ?_⟩
    exact .done (by simp [advance]) (hentry _) (hasNewSecret_saveRow hpk hreads outside c.store)

end Step

/-! ## Whole runs -/

/-- When both commands have reported success, `rotate_signing_secret` has saved the row. -/
theorem SecretStage.stored (h : SecretStage r k k' secret c) :
    NewSecretStored k k' r.pk secret c := by
  intro hsuccess
  cases h with
  | start hstart hnot =>
    exact absurd (hstart.symm.trans (hsuccess .signingSecret)) (by
      simp [Rotations.program, rotateSigningSecret, loadThen])
  | saving saved hsaving => cases hsaving.symm.trans (hsuccess .signingSecret)
  | failed e hfailed => cases hfailed.symm.trans (hsuccess .signingSecret)
  | done _ _ hnew =>
    obtain ⟨row, hrow, hpk⟩ := hnew.present
    cases hfind : c.store.find? (fun row => row.pk = r.pk) with
    | none => exact absurd hpk (by simpa using List.find?_eq_none.mp hfind row hrow)
    | some found =>
      exact ⟨found, rfl, hnew.reads found (List.mem_of_find?_eq_some hfind)
        (by simpa using List.find?_some hfind)⟩

end Invariant

/-- In every interleaving whose steps are careful, the secret that `rotate_signing_secret` has
set can be read under one of the keys once both commands have reported success. -/
theorem new_secret_survives (hF : F.Lawful) (r : Rotations F)
    (hbackend : r.settings.secretBackend = "database") {k k' : F.Key}
    (hold : F.parse r.old.key = some k) (hnew : F.parse r.new.key = some k')
    (hkey : r.key = some r.old.key ∨ r.key = some r.new.key) {file : SecretFile} {secret : String}
    (hfile : r.options.newSecretFile = some file) (hset : file.contents.map strip = some secret)
    (hplain : ¬ Prefixed secret) (table : List EndpointRow) {c : Rotating}
    (h : rotating.Reaches (Careful k r.pk) (r.start table) c) :
    NewSecretStored k k' r.pk secret c := by
  obtain ⟨k₀, hk, hkey₀⟩ : ∃ k₀, (k₀ = k ∨ k₀ = k') ∧ getFernet F r.key = .ok k₀ := by
    rcases hkey with hkey | hkey
    · exact ⟨k, .inl rfl, hkey ▸ getFernet_parse hF hold⟩
    · exact ⟨k', .inr rfl, hkey ▸ getFernet_parse hF hnew⟩
  have hstages : KeyStage r secret c ∧ SecretStage r k k' secret c := by
    refine h.invariant (I := fun c => KeyStage r secret c ∧ SecretStage r k k' secret c)
      ⟨.start rfl, .start rfl (by simp [Saved, Rotations.start])⟩ ?_
    rintro c label d - ⟨hencryption, hsigning⟩ hcareful hstep
    cases label with
    | run command outside =>
      cases command with
      | encryptionKey =>
        exact step_encryptionKey hF hold hnew hplain hencryption hsigning hcareful hstep
      | signingSecret =>
        exact step_signingSecret hF hplain hbackend hk hkey₀ hfile hset hencryption hsigning hstep
    | relaunch command =>
      obtain ⟨_, _, _, hnone, -⟩ := step_relaunch.mp hstep
      cases hnone
    | environment a => exact a.elim
  exact hstages.2.stored

/-! ## A new secret that is lost -/

/-- An endpoint with a secret under the old key gets a new one while the key is rotated. -/
def exampleRotations : Rotations Fernet.padded where
  old := oldKey
  new := newKey
  keySaving _ := exampleSaving
  key := exampleKey
  options := { endpointId := 1, newSecretFile := some ⟨"new.txt", some "fresh"⟩ }
  saving := exampleSaving

def hunterRow : EndpointRow :=
  { newEndpoint with
    signingSecret := encryptedPrefix ++ Fernet.padded.encrypt 'k' () "hunter2" }

/-- The command has reported success. -/
def succeeded : Edit Unit → Bool
  | .ret (.ok _) => true
  | _ => false

theorem eq_of_succeeded {p : Edit Unit} (h : succeeded p = true) : p = .ret (.ok ()) := by
  unfold succeeded at h
  split at h
  · rfl
  · cases h

/-- Of two keys none reads another secret in a token. -/
theorem not_reads_encrypt (hF : F.Lawful) (k k' : F.Key) (nonce : F.Nonce)
    {secret secret' : String} (hne : secret ≠ secret') :
    ¬ Reads k (encryptedPrefix ++ F.encrypt k' nonce secret) secret' := by
  intro hreads
  rw [reads_append] at hreads
  have hsame := hF.eq_of_decrypt hreads (hF.decrypt_encrypt k' nonce secret)
  exact hne hsame.2.symm

/-- The table is loaded, the new secret is stored, and the old one is saved over it. -/
theorem new_secret_overwritten :
    ∃ c, rotating.Reaches (fun _ _ => True) (exampleRotations.start [hunterRow]) c ∧
      (∀ command, c.program command = .ret (.ok ())) ∧
      ¬ NewSecretStored (F := Fernet.padded) 'k' 'n' 1 "fresh" c := by
  have hrun : (rotating.schedule (exampleRotations.start [hunterRow])
      [.run .encryptionKey {}, .run .signingSecret {}, .run .signingSecret {},
        .run .encryptionKey {}]).map (fun c => (c.store.map fun row => (row.pk, row.signingSecret),
          succeeded (c.program .encryptionKey), succeeded (c.program .signingSecret))) =
      some ([(1, encryptedPrefix ++ Fernet.padded.encrypt 'n' () "hunter2")], true, true) := by
    decide +kernel
  obtain ⟨c, hc, hend⟩ := Option.map_eq_some_iff.mp hrun
  obtain ⟨htable, hencryption, hsigning⟩ : _ ∧ _ ∧ _ :=
    (Prod.mk.inj hend).imp_right Prod.mk.inj
  have hsuccess : ∀ command, c.program command = .ret (.ok ()) := by
    intro command
    cases command with
    | encryptionKey => exact eq_of_succeeded hencryption
    | signingSecret => exact eq_of_succeeded hsigning
  refine ⟨c, reaches_of_schedule hc .refl, hsuccess, fun hstored => ?_⟩
  obtain ⟨row, hrow, hreads⟩ := hstored hsuccess
  have hmem := List.mem_map_of_mem (f := fun row : EndpointRow => (row.pk, row.signingSecret))
    (List.mem_of_find?_eq_some hrow)
  rw [htable] at hmem
  rw [(Prod.mk.inj (List.mem_singleton.mp hmem)).2] at hreads
  exact hreads.elim (not_reads_encrypt Fernet.padded_lawful _ _ _ (by decide))
    (not_reads_encrypt Fernet.padded_lawful _ _ _ (by decide))

/-- Before the row has been saved every step is careful, and so are those of
`rotate_signing_secret`. -/
theorem careful_of_not_saved {k : F.Key} {pk : Nat} {c : Rotating}
    {label : Label EditOutside Empty RotateCommand} (h : ¬ Saved c.log) : Careful k pk c label :=
  fun _ _ _ => ⟨fun _ hsaved => absurd hsaved h, fun _ _ _ hstale => h hstale.1⟩

theorem careful_signingSecret (k : F.Key) (pk : Nat) (c : Rotating) (outside : EditOutside) :
    Careful k pk c (.run .signingSecret outside) := by
  intro ev hev hcommand
  obtain ⟨e, op, rest, hlabel, -, -⟩ := mem_performed.mp (show (ev.1, ev.2) ∈ _ from hev)
  rw [hcommand] at hlabel
  cases hlabel

/-- The key is rotated first, and then the secret. -/
theorem new_secret_survives_fresh :
    ∃ c, rotating.Reaches (Careful (F := Fernet.padded) 'k' 1)
        (exampleRotations.start [hunterRow]) c ∧
      (∀ command, succeeded (c.program command) = true) ∧
      NewSecretStored (F := Fernet.padded) 'k' 'n' 1 "fresh" c := by
  have hrun : (rotating.schedule (exampleRotations.start [hunterRow])
      [.run .encryptionKey {}, .run .encryptionKey {}, .run .signingSecret {},
        .run .signingSecret {}]).map (fun c => (succeeded (c.program .encryptionKey),
          succeeded (c.program .signingSecret))) = some (true, true) := by
    decide +kernel
  obtain ⟨c, hc, hend⟩ := Option.map_eq_some_iff.mp hrun
  have hcareful : rotating.Each (Careful (F := Fernet.padded) 'k' 1)
      (exampleRotations.start [hunterRow]) [.run .encryptionKey {}, .run .encryptionKey {},
        .run .signingSecret {}, .run .signingSecret {}] := by
    have hstart : ¬ Saved (exampleRotations.start [hunterRow]).log := by
      simp [Saved, Rotations.start]
    intro d hd
    refine ⟨careful_of_not_saved hstart, ?_⟩
    obtain ⟨op, rest, -, rfl⟩ := step_run.mp hd
    intro d' hd'
    refine ⟨careful_of_not_saved (by simp [advance, saved_snoc, hstart]), ?_⟩
    exact fun d'' _ => ⟨careful_signingSecret _ _ _ _, fun _ _ =>
      ⟨careful_signingSecret _ _ _ _, trivial⟩⟩
  have hreaches := hcareful.reaches hc .refl
  have hold : Fernet.padded.parse oldKey.key = some 'k' := rfl
  have hnew : Fernet.padded.parse newKey.key = some 'n' := rfl
  have hset : (some "fresh").map strip = some "fresh" := by decide +kernel
  refine ⟨c, hreaches, ?_, new_secret_survives Fernet.padded_lawful exampleRotations rfl hold hnew
    (.inl rfl) rfl hset (by decide) _ hreaches⟩
  intro command
  cases command with
  | encryptionKey => exact (Prod.mk.inj hend).1
  | signingSecret => exact (Prod.mk.inj hend).2

end WebhookRelay
