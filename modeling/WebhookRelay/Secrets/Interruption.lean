import WebhookRelay.Secrets.KeyRotation

/-!
# Key rotation and crashes

A row of a table that was written under the old key stays as it was or is rewritten as a
whole under the new key. A rewritten row is loaded without any secret under the old key, so a
later run leaves it out, unless the two keys are the same and it is rewritten once more.

`rotation_survives_crashes` is the law for any number of runs, each killed anywhere.
-/

namespace WebhookRelay

open Interleaving

variable {F : Fernet} {k k' : F.Key} {column secret : String}

/-- The column holds the secret as legacy text or as the field wrote it under the key; a
blank column holds the empty secret. -/
def Holds (k : F.Key) (column secret : String) : Prop :=
  ¬ Prefixed secret ∧ (column = secret ∨ ∃ nonce, column = stored k nonce secret)

/-- The column holds the secret as the field writes it under the key. -/
def Encrypted (k : F.Key) (column secret : String) : Prop :=
  ¬ Prefixed secret ∧ (column = "" ∧ secret = "" ∨ ∃ nonce, column = stored k nonce secret)

theorem Encrypted.holds (h : Encrypted k column secret) : Holds k column secret :=
  ⟨h.1, h.2.imp_left fun hblank => hblank.1.trans hblank.2.symm⟩

theorem Holds.reads (hF : F.Lawful) (h : Holds k column secret) : Reads k column secret := by
  obtain ⟨hplain, rfl | ⟨nonce, rfl⟩⟩ := h
  · exact (reads_plain hplain k column).mpr rfl
  · exact reads_stored hF hplain k nonce

/-- What is written under one key is loaded as an empty secret under another. -/
theorem Encrypted.loaded_other (hF : F.Lawful) (hne : k ≠ k') (h : Encrypted k' column secret) :
    loaded k column = "" := by
  obtain ⟨hplain, ⟨rfl, -⟩ | ⟨nonce, rfl⟩⟩ := h
  · exact loaded_empty k
  · by_cases hempty : secret = ""
    · rw [hempty, stored_empty, loaded_empty]
    · exact loaded_stored_other hF hempty hplain hne nonce

/-- A column that is loaded without a secret is blank, so it is written under any key. -/
theorem Holds.encrypted_of_loaded (hF : F.Lawful) (h : Holds k column secret)
    (hempty : loaded k column = "") : Encrypted k' column secret := by
  obtain rfl : secret = "" := (h.reads hF).loaded.symm.trans hempty
  obtain ⟨hplain, rfl | ⟨nonce, rfl⟩⟩ := h
  · exact ⟨hplain, .inl ⟨rfl, rfl⟩⟩
  · exact ⟨hplain, .inl ⟨stored_empty k nonce, rfl⟩⟩

/-! ## A row in a mixed state -/

/-- The row holds these two secrets as it did before the first run, or rewritten. -/
def Intact (k k' : F.Key) (row : EndpointRow) (current previous : String) : Prop :=
  (Holds k row.signingSecret current ∧ Holds k row.signingSecretPrevious previous) ∨
    (Encrypted k' row.signingSecret current ∧ Encrypted k' row.signingSecretPrevious previous)

section Row

variable {row : EndpointRow} {current previous : String}

/-- A row that is rewritten holds its secrets under the new key. -/
theorem Intact.reencrypted (hF : F.Lawful) (h : Intact k k' row current previous)
    (hsecret : hasSecret (loadedRow k row)) (saving : Saving F) :
    Encrypted k' (reencrypted k k' saving row).signingSecret current ∧
      Encrypted k' (reencrypted k k' saving row).signingSecretPrevious previous := by
  have hold : Holds k row.signingSecret current ∧ Holds k row.signingSecretPrevious previous := by
    rcases h with hold | ⟨hcurrent, hprevious⟩
    · exact hold
    · by_cases hkeys : k = k'
      · subst hkeys
        exact ⟨hcurrent.holds, hprevious.holds⟩
      · simp [hasSecret, loadedRow, hcurrent.loaded_other hF hkeys,
          hprevious.loaded_other hF hkeys] at hsecret
  refine ⟨⟨hold.1.1, .inr ⟨saving.signingSecret, ?_⟩⟩,
    ⟨hold.2.1, .inr ⟨saving.signingSecretPrevious, ?_⟩⟩⟩
  · rw [WebhookRelay.reencrypted, (hold.1.reads hF).loaded]
  · rw [WebhookRelay.reencrypted, (hold.2.reads hF).loaded]

/-- A row that is left out holds its secrets under the new key as well. -/
theorem Intact.left (hF : F.Lawful) (h : Intact k k' row current previous)
    (hsecret : hasSecret (loadedRow k row) = false) :
    Encrypted k' row.signingSecret current ∧
      Encrypted k' row.signingSecretPrevious previous := by
  rcases h with ⟨hcurrent, hprevious⟩ | hnew
  · rw [hasSecret, Bool.or_eq_false_iff, decide_eq_false_iff_not, decide_eq_false_iff_not,
      not_ne_iff, not_ne_iff] at hsecret
    exact ⟨hcurrent.encrypted_of_loaded hF hsecret.1, hprevious.encrypted_of_loaded hF hsecret.2⟩
  · exact hnew

/-- An intact row can be read as a whole under one of the keys. -/
theorem Intact.reads (hF : F.Lawful) (h : Intact k k' row current previous) :
    ∃ key, (key = k ∨ key = k') ∧
      Reads key row.signingSecret current ∧ Reads key row.signingSecretPrevious previous := by
  rcases h with ⟨hcurrent, hprevious⟩ | ⟨hcurrent, hprevious⟩
  · exact ⟨k, .inl rfl, hcurrent.reads hF, hprevious.reads hF⟩
  · exact ⟨k', .inr rfl, hcurrent.holds.reads hF, hprevious.holds.reads hF⟩

end Row

/-! ## Runs -/

section Runs

variable {old new : LabelledKey} {table : List EndpointRow}

/-- A run that is killed: what it draws at random, its surroundings and the number of
statements it gets to. -/
structure KilledRun (F : Fernet) where
  saving : Nat → Saving F
  outside : EditOutside
  statements : Nat

/-- The table that killed runs leave, one after the other. -/
def afterKilled (old new : LabelledKey) (runs : List (KilledRun F)) (table : List EndpointRow) :
    List EndpointRow :=
  runs.foldl (fun table run => (rotateEncryptionKey F run.saving old new false).halt editTable
    run.outside run.statements table) table

/-- The two secrets of a row as it was before the first run. -/
def Original (k : F.Key) (row : EndpointRow) (current previous : String) : Prop :=
  Holds k row.signingSecret current ∧ Holds k row.signingSecretPrevious previous

/-- Every row of the table is intact as to the secrets it had at the start. -/
def AllIntact (k k' : F.Key) : List EndpointRow → List EndpointRow → Prop :=
  List.Forall₂ fun row after => after.pk = row.pk ∧
    ∀ current previous, Original k row current previous → Intact k k' after current previous

theorem AllIntact.refl (table : List EndpointRow) : AllIntact k k' table table :=
  List.forall₂_same.mpr fun _ _ => ⟨rfl, fun _ _ => .inl⟩

theorem AllIntact.pks {after : List EndpointRow} (h : AllIntact k k' table after) :
    after.map (·.pk) = table.map (·.pk) := by
  induction h with
  | nil => rfl
  | cons hrow _ ih => rw [List.map_cons, List.map_cons, hrow.1, ih]

/-- What a run does to an intact table, row by row. -/
theorem AllIntact.rewritten {R : EndpointRow → EndpointRow → Prop} {after : List EndpointRow}
    (h : AllIntact k k' table after) (saving : Nat → Saving F) (pks : List Nat)
    (hrow : ∀ row before, before ∈ after → before.pk = row.pk →
      (∀ current previous, Original k row current previous →
        Intact k k' before current previous) →
      R row (if before.pk ∈ pks then reencrypted k k' (saving before.pk) before else before)) :
    List.Forall₂ R table (rewritten k k' saving pks after) := by
  rw [WebhookRelay.rewritten, List.forall₂_map_right_iff, List.forall₂_iff_zip]
  obtain ⟨hlength, hzip⟩ := List.forall₂_iff_zip.mp h
  exact ⟨hlength, fun hmem =>
    hrow _ _ (List.of_mem_zip hmem).2 (hzip hmem).1 (hzip hmem).2⟩

/-- A killed run leaves an intact table intact. -/
theorem AllIntact.halt (hF : F.Lawful) (hold : F.parse old.key = some k)
    (hnew : F.parse new.key = some k') (hnodup : (table.map (·.pk)).Nodup)
    {after : List EndpointRow} (h : AllIntact k k' table after) (run : KilledRun F) :
    AllIntact k k' table ((rotateEncryptionKey F run.saving old new false).halt editTable
      run.outside run.statements after) := by
  have hnodup' : (after.map (·.pk)).Nodup := h.pks ▸ hnodup
  rw [halt_rotateEncryptionKey hF hold hnew hnodup']
  refine h.rewritten run.saving _ fun row before hbefore hpk hintact => ?_
  split
  · next hdone =>
    have hsaved := List.map_subset WebhookEndpoint.pk (List.take_subset _ _) hdone
    have hsecret := hasSecret_of_saved hnodup' hbefore hsaved
    exact ⟨hpk, fun current previous horiginal =>
      .inr ((hintact current previous horiginal).reencrypted hF hsecret _)⟩
  · exact ⟨hpk, hintact⟩

theorem allIntact_afterKilled (hF : F.Lawful) (hold : F.parse old.key = some k)
    (hnew : F.parse new.key = some k') (hnodup : (table.map (·.pk)).Nodup)
    (runs : List (KilledRun F)) : AllIntact k k' table (afterKilled old new runs table) := by
  induction runs using List.reverseRecOn with
  | nil => exact .refl table
  | append_singleton runs run ih =>
    rw [afterKilled, List.foldl_concat]
    exact ih.halt hF hold hnew hnodup run

/-- Key rotation survives crashes. Take any row whose columns are blank, legacy text or
written under the old key. However often the command is killed, or ends because the database
refuses a row, the row can be read as a whole under one of the two keys, and a run that completes,
as one does if nothing is refused, leaves both its secrets readable under the new key. -/
theorem rotation_survives_crashes (hF : F.Lawful) (old new : LabelledKey)
    (hold : F.parse old.key = some k) (hnew : F.parse new.key = some k')
    (table : List EndpointRow) (hnodup : (table.map (·.pk)).Nodup)
    (runs : List (KilledRun F)) (saving : Nat → Saving F) (outside : EditOutside) :
    List.Forall₂ (fun row after => ∀ current previous, Original k row current previous →
        ∃ key, (key = k ∨ key = k') ∧ Reads key after.signingSecret current ∧
          Reads key after.signingSecretPrevious previous)
      table (afterKilled old new runs table) ∧
    ∃ result, result = (rotateEncryptionKey F saving old new false).exec editTable outside
        (afterKilled old new runs table) ∧
      ((∀ pk row, (saving pk).refuses row = false) → result.value = .ok ()) ∧
      (result.value = .ok () →
        List.Forall₂ (fun row after => ∀ current previous, Original k row current previous →
            Reads k' after.signingSecret current ∧ Reads k' after.signingSecretPrevious previous)
          table result.store) := by
  have hkilled := allIntact_afterKilled hF hold hnew hnodup runs
  have hnodup' : ((afterKilled old new runs table).map (·.pk)).Nodup := hkilled.pks ▸ hnodup
  obtain ⟨hvalue, hstore⟩ := exec_rotateEncryptionKey hF hold hnew saving outside hnodup'
  refine ⟨hkilled.imp fun row after h current previous horiginal =>
    (h.2 current previous horiginal).reads hF, _, rfl, fun haccepts => ?_, fun hcompletes => ?_⟩
  · exact hvalue.trans (if_pos (List.all_eq_true.mpr fun row _ => by simp [accepts, haccepts]))
  have hall : (chosenRows k outside (afterKilled old new runs table)).all
      (accepts k k' saving) = true := by
    by_contra hrefused
    rw [hvalue, if_neg hrefused] at hcompletes
    cases hcompletes
  rw [hstore, savedRows_eq hall]
  refine hkilled.rewritten saving _ ?_
  intro row before hbefore _ hintact current previous horiginal
  have hbefore_intact := hintact current previous horiginal
  have hencrypted : ∀ row' : EndpointRow, Encrypted k' row'.signingSecret current ∧
      Encrypted k' row'.signingSecretPrevious previous →
      Reads k' row'.signingSecret current ∧ Reads k' row'.signingSecretPrevious previous :=
    fun _ h => ⟨h.1.holds.reads hF, h.2.holds.reads hF⟩
  split
  · next hdone =>
    exact hencrypted _
      (hbefore_intact.reencrypted hF ((mem_chosenRows hnodup' hbefore).mp hdone) _)
  · next hdone =>
    exact hencrypted _ (hbefore_intact.left hF
      (Bool.eq_false_iff.mpr fun hsecret => hdone ((mem_chosenRows hnodup' hbefore).mpr hsecret)))

end Runs

/-! ## A run that is killed between two saves -/

/-- A row of legacy text and one that was written under the old key. -/
def twoRows : List EndpointRow :=
  [{ newEndpoint with signingSecret := "hunter2" },
    { newEndpoint with
      pk := 2
      signingSecret := encryptedPrefix ++ Fernet.padded.encrypt 'k' () "site" }]

/-- A run that loads the table and saves one row. -/
def killedBetween : KilledRun Fernet.padded := ⟨fun _ => exampleSaving, {}, 2⟩

/-- The killed run leaves one row under each key, and the next one completes. -/
theorem rotation_survives_crashes_between :
    (afterKilled oldKey newKey [killedBetween] twoRows).map (·.signingSecret) =
        [encryptedPrefix ++ Fernet.padded.encrypt 'n' () "hunter2",
          encryptedPrefix ++ Fernet.padded.encrypt 'k' () "site"] ∧
      ∃ after after', ((rotateEncryptionKey Fernet.padded (fun _ => exampleSaving) oldKey newKey
          false).exec editTable {} (afterKilled oldKey newKey [killedBetween] twoRows)).store =
            [after, after'] ∧
        Reads (F := Fernet.padded) 'n' after.signingSecret "hunter2" ∧
        Reads (F := Fernet.padded) 'n' after'.signingSecret "site" := by
  obtain ⟨-, _, rfl, hsuccess, hreads⟩ := rotation_survives_crashes Fernet.padded_lawful
    oldKey newKey (show Fernet.padded.parse oldKey.key = some 'k' from rfl)
    (show Fernet.padded.parse newKey.key = some 'n' from rfl) twoRows (by decide) [killedBetween]
    (fun _ => exampleSaving) {}
  obtain ⟨after, _, hafter, hrest, hstore⟩ :=
    List.forall₂_cons_left_iff.mp (hreads (hsuccess fun _ _ => rfl))
  obtain ⟨after', _, hafter', hnil, rfl⟩ := List.forall₂_cons_left_iff.mp hrest
  obtain rfl := List.forall₂_nil_left_iff.mp hnil
  have hlegacy := hafter "hunter2" ""
  have htoken := hafter' "site" ""
  refine ⟨by decide +kernel, after, after', hstore, (hlegacy ⟨?_, ?_⟩).1, (htoken ⟨?_, ?_⟩).1⟩
  · exact ⟨by decide, .inl rfl⟩
  · exact ⟨by decide, .inl rfl⟩
  · exact ⟨by decide, .inr ⟨(), (stored_of_plain (by decide) (by decide) _ _).symm⟩⟩
  · exact ⟨by decide, .inl rfl⟩

end WebhookRelay
