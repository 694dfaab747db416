import WebhookRelay.Library.Program
import WebhookRelay.Model.Editing
import WebhookRelay.Secrets.ColumnLength

/-!
# Rotating the encryption key

A run loads every row under the old key and rewrites those that have a secret under the new
one. What the old key cannot read is loaded as an empty secret, so the run never reports it:
it is blanked with the rest of its row, or its row is left out. At a row that the database
refuses the run ends, with the rows before it rewritten and the others left as they are.

## Main results

* `rotation_allOrError_iff` — a run meets what its documentation promises exactly if the old key
  reads the secrets of the rows that it saves, and the new key those of the others.
* `rotation_survives_crashes` — runs that are killed between two saves leave every row
  readable under one of the two keys, and one that completes leaves all under the new key.
-/

namespace WebhookRelay

open Interleaving

variable {F : Fernet}

/-! ## Reading a column -/

/-- The column can be read under the key, and this is the secret in it. -/
def Reads (k : F.Key) (column secret : String) : Prop :=
  match tokenOf column with
  | none => column = secret
  | some token => F.decrypt k token = some secret

theorem reads_plain {column : String} (h : ¬ Prefixed column) (k : F.Key) (secret : String) :
    Reads k column secret ↔ column = secret := by
  rw [Reads, Option.not_isSome_iff_eq_none.mp h]

theorem reads_append (k : F.Key) (token secret : String) :
    Reads k (encryptedPrefix ++ token) secret ↔ F.decrypt k token = some secret := by
  rw [Reads, tokenOf_append]

theorem Reads.loaded {k : F.Key} {column secret : String} (h : Reads k column secret) :
    loaded k column = secret := by
  rcases plain_or_prefix column with hplain | ⟨token, rfl⟩
  · rw [loaded_of_plain hplain]
    exact (reads_plain hplain k secret).mp h
  · rw [loaded_append, (reads_append k token secret).mp h, Option.getD_some]

/-- What cannot be read is loaded as an empty secret. -/
theorem loaded_of_unread {k : F.Key} {column : String} (h : ∀ secret, ¬ Reads k column secret) :
    loaded k column = "" := by
  rcases plain_or_prefix column with hplain | ⟨token, rfl⟩
  · exact absurd ((reads_plain hplain k column).mpr rfl) (h column)
  · simp only [reads_append] at h
    rw [loaded_append, Option.eq_none_iff_forall_ne_some.mpr h, Option.getD_none]

/-- Two keys that can both read a column read the same. -/
theorem Reads.unique (hF : F.Lawful) {k k' : F.Key} {column secret secret' : String}
    (h : Reads k column secret) (h' : Reads k' column secret') : secret = secret' := by
  rcases plain_or_prefix column with hplain | ⟨token, rfl⟩
  · rw [reads_plain hplain] at h h'
    exact h.symm.trans h'
  · rw [reads_append] at h h'
    exact (hF.eq_of_decrypt h h').2

theorem reads_stored (hF : F.Lawful) {secret : String} (h : ¬ Prefixed secret) (k : F.Key)
    (nonce : F.Nonce) : Reads k (stored k nonce secret) secret := by
  by_cases hne : secret = ""
  · rw [hne, stored_empty]
    exact (reads_plain (by simp) k "").mpr rfl
  · rw [stored_of_plain hne h, reads_append, hF.decrypt_encrypt]

/-! ## The table after some saves -/

/-- The row with its secrets under the new key. -/
def reencrypted (k k' : F.Key) (saving : Saving F) (row : EndpointRow) : EndpointRow :=
  { row with
    signingSecret := stored k' saving.signingSecret (loaded k row.signingSecret)
    signingSecretPrevious :=
      stored k' saving.signingSecretPrevious (loaded k row.signingSecretPrevious) }

/-- The table in which the rows with these primary keys have been rewritten. -/
def rewritten (k k' : F.Key) (saving : Nat → Saving F) (pks : List Nat)
    (table : List EndpointRow) : List EndpointRow :=
  table.map fun row => if row.pk ∈ pks then reencrypted k k' (saving row.pk) row else row

/-- The database stores the row with its secrets under the new key. -/
def accepts (k k' : F.Key) (saving : Nat → Saving F) (row : EndpointRow) : Bool :=
  !(saving row.pk).refuses (reencrypted k k' (saving row.pk) row)

section Saves

variable {k k' : F.Key} {saving : Nat → Saving F} {newKey : String}
  {outside : EditOutside} {table : List EndpointRow}

/-- Saving one more row of the table. -/
theorem updateRow_rewritten (hnodup : (table.map (·.pk)).Nodup) {row : EndpointRow}
    (hrow : row ∈ table) (pks : List Nat) :
    updateRow row.pk (withSecretsOf (reencrypted k k' (saving row.pk) row))
        (rewritten k k' saving pks table) =
      rewritten k k' saving (pks ++ [row.pk]) table := by
  rw [updateRow, rewritten, rewritten, List.map_map]
  refine List.map_congr_left fun other hother => ?_
  by_cases hpk : other.pk = row.pk
  · obtain rfl := List.inj_on_of_nodup_map hnodup hother hrow hpk
    by_cases hdone : other.pk ∈ pks <;>
      simp [hdone, reencrypted, withSecretsOf]
  · by_cases hdone : other.pk ∈ pks <;> simp [hdone, hpk, reencrypted]

/-- The loop ends at a row that the database refuses. -/
theorem saveAll_loadedRow (hnew : getFernet F (some newKey) = .ok k') (row : EndpointRow)
    (rest : List WebhookEndpoint) :
    saveAll F newKey saving (loadedRow k row :: rest) =
      if accepts k k' saving row then
        .call (.saveSecrets (reencrypted k k' (saving row.pk) row)) fun affected =>
          if affected then saveAll F newKey saving rest else .ret (.error .databaseError)
      else .ret (.error .databaseError) := by
  rw [saveAll, prepareRow_ok hnew, accepts]
  change (if (saving row.pk).refuses (reencrypted k k' (saving row.pk) row) then _ else _) = _
  cases (saving row.pk).refuses (reencrypted k k' (saving row.pk) row) <;> rfl

/-- A row of the table is still there, under its key, after any saves. -/
theorem any_rewritten {row : EndpointRow} (hrow : row ∈ table) (pks : List Nat) :
    (rewritten k k' saving pks table).any (fun other => other.pk = row.pk) = true := by
  rw [rewritten, List.any_map, List.any_eq_true]
  refine ⟨row, hrow, ?_⟩
  by_cases hdone : row.pk ∈ pks <;> simp [hdone, reencrypted]

/-- One save of the loop. -/
theorem respondEdit_saveSecrets (hnodup : (table.map (·.pk)).Nodup) {row : EndpointRow}
    (hrow : row ∈ table) (pks : List Nat) :
    editTable outside (.saveSecrets (reencrypted k k' (saving row.pk) row))
        (rewritten k k' saving pks table) =
      (true, rewritten k k' saving (pks ++ [row.pk]) table) := by
  simp only [editTable, respondEdit]
  rw [show (reencrypted k k' (saving row.pk) row).pk = row.pk from rfl, any_rewritten hrow,
    updateRow_rewritten hnodup hrow]

/-- The loop rewrites the rows one by one, and may be killed after any of them. -/
theorem halt_saveAll (hnew : getFernet F (some newKey) = .ok k')
    (hnodup : (table.map (·.pk)).Nodup) {rows : List EndpointRow} (hrows : rows ⊆ table)
    (n : Nat) (pks : List Nat) :
    (saveAll F newKey saving (rows.map (loadedRow k))).halt editTable outside n
        (rewritten k k' saving pks table) =
      rewritten k k' saving (pks ++ ((rows.takeWhile (accepts k k' saving)).take n).map (·.pk))
        table := by
  induction rows generalizing n pks with
  | nil => simp [saveAll]
  | cons row rows ih =>
    obtain ⟨hrow, hrows⟩ := List.cons_subset.mp hrows
    cases n with
    | zero => simp
    | succ n =>
      rw [List.map_cons, saveAll_loadedRow hnew]
      cases haccepts : accepts k k' saving row with
      | false => simp [haccepts]
      | true =>
        simp only [if_true, Program.halt_call, respondEdit_saveSecrets hnodup hrow]
        rw [ih hrows n (pks ++ [row.pk]), List.takeWhile_cons_of_pos haccepts, List.take_succ_cons,
          List.map_cons, List.append_assoc, List.singleton_append]

/-- The loop that is not killed rewrites the rows before the first one that is refused. -/
theorem exec_saveAll (hnew : getFernet F (some newKey) = .ok k')
    (hnodup : (table.map (·.pk)).Nodup) {rows : List EndpointRow} (hrows : rows ⊆ table)
    (pks : List Nat) :
    ((saveAll F newKey saving (rows.map (loadedRow k))).exec editTable outside
        (rewritten k k' saving pks table)).value =
        (if rows.all (accepts k k' saving) then .ok () else .error .databaseError) ∧
      ((saveAll F newKey saving (rows.map (loadedRow k))).exec editTable outside
        (rewritten k k' saving pks table)).store =
      rewritten k k' saving (pks ++ (rows.takeWhile (accepts k k' saving)).map (·.pk)) table := by
  induction rows generalizing pks with
  | nil => simp [saveAll]
  | cons row rows ih =>
    obtain ⟨hrow, hrows⟩ := List.cons_subset.mp hrows
    rw [List.map_cons, saveAll_loadedRow hnew]
    cases haccepts : accepts k k' saving row with
    | false => simp [haccepts]
    | true =>
      simp only [if_true, Program.exec_call, respondEdit_saveSecrets hnodup hrow]
      simpa [haccepts] using ih hrows (pks ++ [row.pk])

end Saves

/-! ## A run -/

section Run

variable {k k' : F.Key} {saving : Nat → Saving F} {old new : LabelledKey}
  {outside : EditOutside} {table : List EndpointRow}

/-- The rows that a run rewrites, in the order in which the query lists them. -/
def chosenRows (k : F.Key) (outside : EditOutside) (table : List EndpointRow) :
    List EndpointRow :=
  (outside.order table).filter fun row => hasSecret (loadedRow k row)

/-- The chosen rows before the first one that the database refuses. -/
def savedRows (k k' : F.Key) (saving : Nat → Saving F) (outside : EditOutside)
    (table : List EndpointRow) : List EndpointRow :=
  (chosenRows k outside table).takeWhile (accepts k k' saving)

theorem getFernet_parse (hF : F.Lawful) {key : String} (h : F.parse key = some k) :
    getFernet F (some key) = .ok k := by
  have hne : key ≠ "" := by
    rintro rfl
    cases hF.parse_empty.symm.trans h
  simp [getFernet, Option.filter, hne, h]

/-- On usable keys a run loads the table, and then a dry run is over. -/
theorem rotateEncryptionKey_load (hF : F.Lawful) (hold : F.parse old.key = some k)
    (hnew : F.parse new.key = some k') (saving : Nat → Saving F) (dryRun : Bool) :
    rotateEncryptionKey F saving old new dryRun = .call .allRows fun rows =>
      if dryRun then .ret (.ok ())
      else saveAll F new.key saving ((rows.map (loadedRow k)).filter hasSecret) := by
  have hload : loadRow F (some old.key) = fun row => pure (loadedRow k row) := by
    funext row
    exact loadRow_ok (getFernet_parse hF hold) row
  simp only [rotateEncryptionKey, hold, hnew, Option.isNone_some, hload, List.mapM_pure]
  rfl

/-- A run on usable keys loads the table and goes into its loop. -/
theorem rotateEncryptionKey_eq (hF : F.Lawful) (hold : F.parse old.key = some k)
    (hnew : F.parse new.key = some k') :
    rotateEncryptionKey F saving old new false = .call .allRows fun rows =>
      saveAll F new.key saving
        ((rows.filter fun row => hasSecret (loadedRow k row)).map (loadedRow k)) := by
  rw [rotateEncryptionKey_load hF hold hnew]
  simp [List.filter_map, Function.comp_def]

/-- A run that is killed has rewritten the first rows of its list. -/
theorem halt_rotateEncryptionKey (hF : F.Lawful) (hold : F.parse old.key = some k)
    (hnew : F.parse new.key = some k')
    (hnodup : (table.map (·.pk)).Nodup) (n : Nat) :
    (rotateEncryptionKey F saving old new false).halt editTable outside n table =
      rewritten k k' saving (((savedRows k k' saving outside table).take (n - 1)).map (·.pk))
        table := by
  have hstart : table = rewritten k k' saving [] table := by simp [rewritten]
  cases n with
  | zero => simpa using hstart
  | succ n =>
    rw [rotateEncryptionKey_eq hF hold hnew, Program.halt_call]
    conv_lhs => rw [show (editTable outside .allRows table).2 = rewritten k k' saving [] table
      from hstart]
    exact halt_saveAll (getFernet_parse hF hnew) hnodup
      (fun _ hrow => (outside.order_perm table).subset (List.mem_of_mem_filter hrow)) n []

/-- A run that is not killed rewrites them, and succeeds if none is refused. -/
theorem exec_rotateEncryptionKey (hF : F.Lawful) (hold : F.parse old.key = some k)
    (hnew : F.parse new.key = some k') (saving : Nat → Saving F) (outside : EditOutside)
    (hnodup : (table.map (·.pk)).Nodup) :
    ((rotateEncryptionKey F saving old new false).exec editTable outside table).value =
        (if (chosenRows k outside table).all (accepts k k' saving) then .ok ()
          else .error .databaseError) ∧
      ((rotateEncryptionKey F saving old new false).exec editTable outside table).store =
        rewritten k k' saving ((savedRows k k' saving outside table).map (·.pk)) table := by
  have hstart : (editTable outside .allRows table).2 = rewritten k k' saving [] table := by
    simp [rewritten, editTable, respondEdit]
  rw [rotateEncryptionKey_eq hF hold hnew, Program.exec_call, hstart]
  exact exec_saveAll (getFernet_parse hF hnew) hnodup
    (fun _ hrow => (outside.order_perm table).subset (List.mem_of_mem_filter hrow)) []

/-- A row of the table is chosen if it is loaded with a secret. -/
theorem mem_chosenRows (hnodup : (table.map (·.pk)).Nodup) {row : EndpointRow}
    (hrow : row ∈ table) :
    row.pk ∈ (chosenRows k outside table).map (·.pk) ↔ hasSecret (loadedRow k row) := by
  rw [List.mem_map]
  constructor
  · rintro ⟨other, hother, hpk⟩
    obtain ⟨hmem, hsecret⟩ := List.mem_filter.mp hother
    obtain rfl := List.inj_on_of_nodup_map hnodup ((outside.order_perm table).subset hmem) hrow hpk
    exact hsecret
  · intro hsecret
    exact ⟨row, List.mem_filter.mpr ⟨(outside.order_perm table).symm.subset hrow, hsecret⟩, rfl⟩

/-- Only chosen rows are saved. -/
theorem hasSecret_of_saved (hnodup : (table.map (·.pk)).Nodup) {row : EndpointRow}
    (hrow : row ∈ table)
    (hsaved : row.pk ∈ (savedRows k k' saving outside table).map (·.pk)) :
    hasSecret (loadedRow k row) :=
  (mem_chosenRows hnodup hrow).mp
    (List.map_subset _ (List.takeWhile_subset _) hsaved)

/-- If no row is refused, all that are chosen are saved. -/
theorem savedRows_eq (h : (chosenRows k outside table).all (accepts k k' saving)) :
    savedRows k k' saving outside table = chosenRows k outside table :=
  List.takeWhile_eq_self_iff.mpr (List.all_eq_true.mp h)

end Run

/-! ## All or an error -/

/-- The two encrypted columns of a row. -/
def columns : List (EndpointRow → String) := [(·.signingSecret), (·.signingSecretPrevious)]

/-- What a run promises: unless it ends in an error, every secret reads back under the new
key; and if neither key can read some secret, it ends in an error and changes nothing. -/
structure AllOrError (k k' : F.Key) (table : List EndpointRow)
    (result : Program.Execution editing (List EndpointRow) (Except EditError Unit)) : Prop where
  rewrites : (∀ message, result.value ≠ .error (.commandError message)) →
    List.Forall₂ (fun row after => ∀ column ∈ columns, column row ≠ "" →
      ∃ secret, (Reads k (column row) secret ∨ Reads k' (column row) secret) ∧
        loaded k' (column after) = secret) table result.store
  refuses : (∃ row ∈ table, ∃ column ∈ columns, column row ≠ "" ∧
      ∀ secret, ¬ Reads k (column row) secret ∧ ¬ Reads k' (column row) secret) →
    (∃ message, result.value = .error (.commandError message)) ∧ result.store = table

/-- There is no secret in the row that the key could read. -/
def ReadsNothing (k : F.Key) (row : EndpointRow) : Prop :=
  ∀ column ∈ columns, ∀ secret, Reads k (column row) secret → secret = ""

/-- Every secret of the row survives a save: the old key reads it, and it does not look encrypted
itself, or it is empty under the new key. -/
def SurvivesSave (k k' : F.Key) (row : EndpointRow) : Prop :=
  ∀ column ∈ columns, ∃ secret, (Reads k (column row) secret ∧ ¬ Prefixed secret) ∨
    (Reads k' (column row) secret ∧ secret = "")

/-- Every secret of the row can be used with the new key as it is: that one reads it, or it is
empty under the old key. -/
def SurvivesUnsaved (k k' : F.Key) (row : EndpointRow) : Prop :=
  ∀ column ∈ columns, ∃ secret, Reads k' (column row) secret ∨
    (Reads k (column row) secret ∧ secret = "")

/-- The secrets of a row survive a run that saves it or does not. -/
def Recoverable (k k' : F.Key) (saved : Prop) (row : EndpointRow) : Prop :=
  (saved → SurvivesSave k k' row) ∧ (¬ saved → SurvivesUnsaved k k' row)

section Columns

variable {k k' : F.Key} {column : String}

/-- A column that is rewritten keeps its secret if the old key reads it, up to secrets that
look encrypted; what the new key alone reads is blanked. -/
theorem rewritten_column_iff (hF : F.Lawful) (nonce : F.Nonce) :
    (∃ secret, (Reads k column secret ∨ Reads k' column secret) ∧
        loaded k' (stored k' nonce (loaded k column)) = secret) ↔
      ∃ secret, (Reads k column secret ∧ ¬ Prefixed secret) ∨
        (Reads k' column secret ∧ secret = "") := by
  have hread : ∀ secret, Reads k column secret →
      (loaded k' (stored k' nonce (loaded k column)) = secret ↔ ¬ Prefixed secret) := by
    intro secret h
    rw [h.loaded]
    constructor
    · intro hback hprefixed
      rw [stored_of_prefixed hprefixed] at hback
      exact loaded_ne_of_prefixed hF hprefixed k' hback
    · exact fun hplain => loaded_stored hF hplain k' nonce
  by_cases hold : ∃ secret, Reads k column secret
  · obtain ⟨secret, h⟩ := hold
    constructor
    · rintro ⟨secret', hreads, hback⟩
      obtain rfl : secret = secret' := hreads.elim (h.unique hF) (h.unique hF)
      exact ⟨secret, .inl ⟨h, (hread secret h).mp hback⟩⟩
    · rintro ⟨secret', ⟨h', hplain⟩ | ⟨h', rfl⟩⟩
      · exact ⟨secret', .inl h', (hread secret' h').mpr hplain⟩
      · obtain rfl := h.unique hF h'
        exact ⟨"", .inl h, (hread "" h).mpr (by simp)⟩
  · have hnone : ∀ secret, ¬ Reads k column secret := not_exists.mp hold
    rw [loaded_of_unread hnone, stored_empty, loaded_empty]
    constructor
    · rintro ⟨secret, hreads, rfl⟩
      exact ⟨"", .inr ⟨hreads.resolve_left (hnone ""), rfl⟩⟩
    · rintro ⟨secret, ⟨h, -⟩ | ⟨h, rfl⟩⟩
      · exact absurd h (hnone secret)
      · exact ⟨"", .inr h, rfl⟩

/-- A column that is left as it is keeps what the new key reads. -/
theorem left_column_iff (hF : F.Lawful) :
    (∃ secret, (Reads k column secret ∨ Reads k' column secret) ∧
        loaded k' column = secret) ↔
      ∃ secret, Reads k' column secret ∨ (Reads k column secret ∧ secret = "") := by
  have hloaded : ∀ secret, Reads k column secret → ¬ (∃ secret', Reads k' column secret') →
      loaded k' column = "" := fun _ _ hnew => loaded_of_unread (not_exists.mp hnew)
  constructor
  · rintro ⟨secret, h | h, hback⟩
    · by_cases hnew : ∃ secret', Reads k' column secret'
      · obtain ⟨secret', h'⟩ := hnew
        exact ⟨secret', .inl h'⟩
      · exact ⟨secret, .inr ⟨h, hback.symm.trans (hloaded secret h hnew)⟩⟩
    · exact ⟨secret, .inl h⟩
  · rintro ⟨secret, h | ⟨h, rfl⟩⟩
    · exact ⟨secret, .inr h, h.loaded⟩
    · refine ⟨"", .inl h, ?_⟩
      by_cases hnew : ∃ secret', Reads k' column secret'
      · obtain ⟨secret', h'⟩ := hnew
        rw [h'.loaded, h.unique hF h']
      · exact hloaded "" h hnew

/-- The old key reads nothing in a row exactly if the row is loaded without a secret. -/
theorem hasSecret_loadedRow {row : EndpointRow} :
    hasSecret (loadedRow k row) = false ↔ ReadsNothing k row := by
  have hcolumn : ∀ column, loaded k column = "" ↔
      ∀ secret, Reads k column secret → secret = "" := by
    intro column
    constructor
    · exact fun h secret hreads => hreads.loaded.symm.trans h
    · intro h
      by_cases hreads : ∃ secret, Reads k column secret
      · obtain ⟨secret, hreads⟩ := hreads
        rw [hreads.loaded, h secret hreads]
      · exact loaded_of_unread (not_exists.mp hreads)
  rw [hasSecret, Bool.or_eq_false_iff, decide_eq_false_iff_not, decide_eq_false_iff_not, not_ne_iff,
    not_ne_iff]
  simp [loadedRow, ReadsNothing, columns, ← hcolumn]

end Columns

section

variable {k k' : F.Key}

theorem reads_blank (k : F.Key) : Reads k "" "" := (reads_plain (by simp) k "").mpr rfl

/-- A row keeps its secrets in a run exactly if it is recoverable. -/
theorem row_kept_iff (hF : F.Lawful) (saving : Saving F) (row : EndpointRow) (saved : Prop)
    [Decidable saved] :
    (∀ column ∈ columns, column row ≠ "" →
      ∃ secret, (Reads k (column row) secret ∨ Reads k' (column row) secret) ∧
        loaded k' (column (if saved then reencrypted k k' saving row else row)) = secret) ↔
      Recoverable k k' saved row := by
  by_cases hsaved : saved
  · have hafter : ∀ column ∈ columns, ∃ nonce,
        column (reencrypted k k' saving row) = stored k' nonce (loaded k (column row)) := by
      simp only [columns, List.forall_mem_cons]
      exact ⟨⟨_, rfl⟩, ⟨_, rfl⟩, by simp⟩
    simp only [Recoverable, hsaved, true_imp_iff, not_true, false_imp_iff, and_true, if_true]
    refine forall₂_congr fun column hcolumn => ?_
    obtain ⟨nonce, hnonce⟩ := hafter column hcolumn
    simp only [hnonce, ← rewritten_column_iff hF nonce]
    refine ⟨fun h => ?_, fun h _ => h⟩
    by_cases hblank : column row = ""
    · rw [hblank, loaded_empty, stored_empty, loaded_empty]
      exact ⟨"", .inl (reads_blank k), rfl⟩
    · exact h hblank
  · simp only [Recoverable, hsaved, false_imp_iff, not_false_iff, true_imp_iff, true_and, if_false]
    refine forall₂_congr fun column hcolumn => ?_
    rw [← left_column_iff hF]
    refine ⟨fun h => ?_, fun h _ => h⟩
    by_cases hblank : column row = ""
    · rw [hblank, loaded_empty]
      exact ⟨"", .inl (reads_blank k), rfl⟩
    · exact h hblank

/-- A run meets its promise exactly if every row is recoverable. -/
theorem rotation_allOrError_iff (hF : F.Lawful) (old new : LabelledKey)
    (hold : F.parse old.key = some k) (hnew : F.parse new.key = some k')
    (saving : Nat → Saving F) (outside : EditOutside) (table : List EndpointRow)
    (hnodup : (table.map (·.pk)).Nodup) :
    AllOrError k k' table
        ((rotateEncryptionKey F saving old new false).exec editTable outside table) ↔
      ∀ row ∈ table, Recoverable k k'
        (row.pk ∈ (savedRows k k' saving outside table).map (·.pk)) row := by
  obtain ⟨hvalue, hstore⟩ := exec_rotateEncryptionKey hF hold hnew saving outside hnodup
  have hrows : (∀ row ∈ table, Recoverable k k'
        (row.pk ∈ (savedRows k k' saving outside table).map (·.pk)) row) ↔
      List.Forall₂ (fun row after => ∀ column ∈ columns, column row ≠ "" →
        ∃ secret, (Reads k (column row) secret ∨ Reads k' (column row) secret) ∧
          loaded k' (column after) = secret) table
        (rewritten k k' saving ((savedRows k k' saving outside table).map (·.pk)) table) := by
    rw [rewritten, List.forall₂_map_right_iff, List.forall₂_same]
    exact forall₂_congr fun row _ => (row_kept_iff hF (saving row.pk) row _).symm
  constructor
  · intro h
    rw [hrows, ← hstore]
    refine h.rewrites fun message => ?_
    rw [hvalue]
    split <;> exact fun herror => nomatch herror
  · intro h
    refine ⟨fun _ => hstore ▸ hrows.mp h, ?_⟩
    rintro ⟨row, hrow, column, hcolumn, -, hnone⟩
    have hreads : ∃ secret, Reads k (column row) secret ∨ Reads k' (column row) secret := by
      by_cases hsaved : row.pk ∈ (savedRows k k' saving outside table).map (·.pk)
      · obtain ⟨secret, hreads⟩ := (h row hrow).1 hsaved column hcolumn
        exact ⟨secret, hreads.imp And.left And.left⟩
      · obtain ⟨secret, hreads⟩ := (h row hrow).2 hsaved column hcolumn
        exact ⟨secret, (hreads.imp_right And.left).symm⟩
    obtain ⟨secret, hreads⟩ := hreads
    exact absurd hreads (not_or.mpr (hnone secret))

end

/-! ## A database that checks the length of a text -/

section Strict

variable {k k' : F.Key} {saving : Nat → Saving F}

/-- Such a database accepts a row exactly if its secrets are not too long for their columns. -/
theorem accepts_strict (hF : F.Lawful) (hstrict : ∀ pk, (saving pk).refuses = tooLong)
    (row : EndpointRow) : accepts k k' saving row ↔
      columnLength (loaded k row.signingSecret) ≤ maxLength ∧
        columnLength (loaded k row.signingSecretPrevious) ≤ maxLength := by
  rw [accepts, hstrict, Bool.not_eq_true']
  exact tooLong_eq_false_iff hF.length_encrypt rfl rfl

/-- A run that comes to a secret that is too long for its column ends there in an error, and what
it has not rewritten is left under the old key. -/
theorem rotation_refused (hF : F.Lawful) {old new : LabelledKey}
    (hold : F.parse old.key = some k) (hnew : F.parse new.key = some k')
    (hstrict : ∀ pk, (saving pk).refuses = tooLong) (outside : EditOutside)
    {table done rest : List EndpointRow} (hnodup : (table.map (·.pk)).Nodup) {row : EndpointRow}
    (hchosen : chosenRows k outside table = done ++ row :: rest)
    (hlong : maxLength < columnLength (loaded k row.signingSecret)) :
    ((rotateEncryptionKey F saving old new false).exec editTable outside table).value =
        .error .databaseError ∧
      ∃ saved, saved <+: done ∧
        ((rotateEncryptionKey F saving old new false).exec editTable outside table).store =
          rewritten k k' saving (saved.map (·.pk)) table := by
  have hrefused : accepts k k' saving row = false := by
    rw [Bool.eq_false_iff, Ne, accepts_strict hF hstrict]
    exact fun hfits => absurd hfits.1 (not_le.mpr hlong)
  obtain ⟨hvalue, hstore⟩ := exec_rotateEncryptionKey hF hold hnew saving outside hnodup
  refine ⟨hvalue.trans (if_neg ?_), _, ?_, hstore⟩
  · simp [hchosen, hrefused]
  · rw [savedRows, hchosen, List.takeWhile_append]
    split
    · simp [hrefused]
    · exact List.takeWhile_prefix _

end Strict

/-! ## A secret that neither key can read

The current secret was written under a third key, the previous one is legacy text. -/

def thirdKeyRow : EndpointRow :=
  { newEndpoint with
    signingSecret := encryptedPrefix ++ Fernet.padded.encrypt 'x' () "hunter2"
    signingSecretPrevious := "legacy" }

def oldKey : LabelledKey := ⟨"--old-key", "k"⟩

def newKey : LabelledKey := ⟨"--new-key", "n"⟩

/-- The run reports success and has blanked the secret it could not read. -/
theorem unreadable_secret_blanked :
    ∃ result, result = (rotateEncryptionKey Fernet.padded (fun _ => exampleSaving) oldKey newKey
        false).exec editTable {} [thirdKeyRow] ∧
      result.value = .ok () ∧ result.store.map (·.signingSecret) = [""] ∧
        ¬ AllOrError (F := Fernet.padded) 'k' 'n' [thirdKeyRow] result := by
  have hnodup : ([thirdKeyRow].map (·.pk)).Nodup := by decide
  obtain ⟨hvalue, hstore⟩ := exec_rotateEncryptionKey Fernet.padded_lawful
    (show Fernet.padded.parse oldKey.key = some 'k' from rfl)
    (show Fernet.padded.parse newKey.key = some 'n' from rfl) (fun _ => exampleSaving) {} hnodup
  have hother : ∀ key secret, key ≠ 'x' →
      ¬ Reads (F := Fernet.padded) key thirdKeyRow.signingSecret secret := by
    intro key secret hkey hreads
    have hdecrypt := (reads_append (F := Fernet.padded) key _ secret).mp hreads
    exact hkey (Fernet.padded_lawful.key_unique hdecrypt)
  rw [if_pos (by decide +kernel)] at hvalue
  refine ⟨_, rfl, hvalue, ?_, fun h => ?_⟩
  · rw [hstore]
    decide +kernel
  · obtain ⟨⟨message, hmessage⟩, -⟩ := h.refuses ⟨thirdKeyRow, by simp, (·.signingSecret),
      by simp [columns], by decide +kernel, fun secret =>
        ⟨hother 'k' secret (by decide), hother 'n' secret (by decide)⟩⟩
    cases hvalue.symm.trans hmessage

/-- A row that was written under the old key, one that has been rewritten already, and one of
legacy texts. -/
def mixedTable : List EndpointRow :=
  [{ newEndpoint with
      signingSecret := encryptedPrefix ++ Fernet.padded.encrypt 'k' () "hunter2"
      signingSecretPrevious := "legacy" },
    { newEndpoint with
      pk := 2
      signingSecret := encryptedPrefix ++ Fernet.padded.encrypt 'n' () "fresh" },
    { newEndpoint with pk := 3, signingSecret := "plain", signingSecretPrevious := "older" }]

def strictSaving : Saving Fernet.padded := { exampleSaving with refuses := tooLong }

theorem rotation_allOrError_mixed :
    AllOrError (F := Fernet.padded) 'k' 'n' mixedTable
      ((rotateEncryptionKey Fernet.padded (fun _ => strictSaving) oldKey newKey false).exec
        editTable {} mixedTable) := by
  refine (rotation_allOrError_iff Fernet.padded_lawful oldKey newKey
    (show Fernet.padded.parse oldKey.key = some 'k' from rfl)
    (show Fernet.padded.parse newKey.key = some 'n' from rfl) _ _ _ (by decide)).mpr ?_
  have hsaved : (savedRows (F := Fernet.padded) 'k' 'n' (fun _ => strictSaving) {}
      mixedTable).map (·.pk) = [1, 3] := by decide +kernel
  have hplain : ∀ {key text}, ¬ Prefixed text → Reads (F := Fernet.padded) key text text :=
    fun h => (reads_plain h _ _).mpr rfl
  have htoken : ∀ key text, Reads (F := Fernet.padded) key
      (encryptedPrefix ++ Fernet.padded.encrypt key () text) text := fun key text =>
    (reads_append _ _ _).mpr (Fernet.padded_lawful.decrypt_encrypt key () text)
  rw [hsaved]
  simp only [mixedTable, List.forall_mem_cons, Recoverable, SurvivesSave, SurvivesUnsaved, columns]
  refine ⟨⟨fun _ => ⟨?_, ?_, List.forall_mem_nil _⟩, ?_⟩,
    ⟨?_, fun _ => ⟨?_, ?_, List.forall_mem_nil _⟩⟩,
    ⟨fun _ => ⟨?_, ?_, List.forall_mem_nil _⟩, ?_⟩, List.forall_mem_nil _⟩
  · exact ⟨"hunter2", .inl ⟨htoken _ _, by decide⟩⟩
  · exact ⟨"legacy", .inl ⟨hplain (by decide), by decide⟩⟩
  · exact fun hnot => absurd (by decide) hnot
  · exact fun hmem => absurd hmem (by decide)
  · exact ⟨"fresh", .inl (htoken _ _)⟩
  · exact ⟨"", .inl (hplain (by decide))⟩
  · exact ⟨"plain", .inl ⟨hplain (by decide), by decide⟩⟩
  · exact ⟨"older", .inl ⟨hplain (by decide), by decide⟩⟩
  · exact fun hnot => absurd (by decide) hnot

end WebhookRelay
