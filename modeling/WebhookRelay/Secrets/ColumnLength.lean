import WebhookRelay.Model.Fields

/-!
# The length of an encrypted column

One `max_length` bounds the characters of a secret and those of its column. The column holds
more: bytes in place of characters, blocks with padding, the parts around them, all of it in
base64, and the prefix.

## Main results

* `length_stored` — the length of a column follows from the secret.
* `column_fits_iff` — a valid secret fits its column exactly up to 703 bytes.
-/

namespace WebhookRelay

open Fernet

/-- The length of the column of a secret. -/
def columnLength (secret : String) : Nat :=
  if secret = "" ∨ Prefixed secret then secret.length
  else encryptedPrefix.length + tokenLength (utf8Length secret)

theorem length_encryptedPrefix : encryptedPrefix.length = 5 := by decide

/-- A token has 4 characters for 3 bytes, and 16 bytes more for every 16 bytes of the secret. -/
theorem prefix_tokenLength_le_iff {bytes : Nat} :
    encryptedPrefix.length + tokenLength bytes ≤ maxLength ↔ bytes ≤ 703 := by
  unfold tokenLength maxLength
  rw [length_encryptedPrefix]
  omega

/-- A valid secret fits its column unless it is encrypted and has more than 703 bytes. -/
theorem columnLength_le_iff {secret : String} (h : secret.length ≤ maxLength) :
    columnLength secret ≤ maxLength ↔ Prefixed secret ∨ utf8Length secret ≤ 703 := by
  unfold columnLength
  split
  · next hkept =>
    refine iff_of_true h ?_
    rcases hkept with rfl | hprefixed
    · exact .inr (by decide)
    · exact .inl hprefixed
  · next hkept =>
    have hplain : ¬ Prefixed secret := fun hprefixed => hkept (.inr hprefixed)
    simp only [prefix_tokenLength_le_iff, hplain, false_or]

section Stored

variable {F : Fernet} (hlength : ∀ k n s, (F.encrypt k n s).length = tokenLength (utf8Length s))
include hlength

theorem length_stored (k : F.Key) (nonce : F.Nonce) (secret : String) :
    (stored k nonce secret).length = columnLength secret := by
  unfold stored columnLength
  split
  · rfl
  · rw [String.length_append, hlength]

/-- What a strict database refuses: a row with a column that is too long. -/
def tooLong (row : EndpointRow) : Bool :=
  maxLength < row.signingSecret.length || maxLength < row.signingSecretPrevious.length

/-- Whether a row is refused follows from its secrets. -/
theorem tooLong_eq_false_iff {k : F.Key} {nonce nonce' : F.Nonce} {row : EndpointRow}
    {current previous : String} (hcurrent : row.signingSecret = stored k nonce current)
    (hprevious : row.signingSecretPrevious = stored k nonce' previous) :
    tooLong row = false ↔ columnLength current ≤ maxLength ∧ columnLength previous ≤ maxLength := by
  rw [tooLong, hcurrent, hprevious, length_stored hlength, length_stored hlength,
    Bool.or_eq_false_iff, decide_eq_false_iff_not, decide_eq_false_iff_not, not_lt, not_lt]

/-- A secret that is encrypted and has more bytes than that does not fit. -/
theorem overflow {key : Option String} {k : F.Key} (hkey : getFernet F key = .ok k)
    (nonce : F.Nonce) {secret : String} (h : secret.length ≤ maxLength)
    (hplain : ¬ Prefixed secret) (hlong : 703 < utf8Length secret) :
    ∃ column, getPrepValue F key nonce secret = .ok column ∧ maxLength < column.length := by
  refine ⟨_, getPrepValue_ok hkey nonce secret, ?_⟩
  rw [length_stored hlength]
  by_contra hfits
  rcases (columnLength_le_iff h).mp (not_lt.mp hfits) with hprefixed | hshort
  · exact hplain hprefixed
  · omega

/-- What `get_prep_value` makes of a valid secret fits the column exactly if the secret has at
most 703 bytes or already looks encrypted, or if there is no key and nothing is made. -/
theorem column_fits_iff (key : Option String) (nonce : F.Nonce) {secret : String}
    (h : secret.length ≤ maxLength) :
    (∀ column, getPrepValue F key nonce secret = .ok column → column.length ≤ maxLength) ↔
      Prefixed secret ∨ utf8Length secret ≤ 703 ∨ ∃ e, getFernet F key = .error e := by
  cases hkey : getFernet F key with
  | ok k =>
    have hfits := columnLength_le_iff h
    rw [← length_stored hlength k nonce secret] at hfits
    simpa [getPrepValue_ok hkey] using hfits
  | error e =>
    refine iff_of_true ?_ (.inr (.inr ⟨e, rfl⟩))
    intro column hcolumn
    by_cases hempty : secret = ""
    · subst hempty
      obtain rfl := Except.ok.inj hcolumn
      exact h
    · rcases getPrepValue_inv hempty hcolumn with ⟨-, rfl⟩ | ⟨-, k, hk, -⟩
      · exact h
      · cases hkey.symm.trans hk

end Stored

theorem column_fits_iff_short : utf8Length "whsec_5f2b" = 10 ∧
    ∀ column, getPrepValue Fernet.padded exampleKey () "whsec_5f2b" = .ok column →
      column.length ≤ maxLength :=
  ⟨by decide, (column_fits_iff padded_lawful.length_encrypt exampleKey () (by decide)).mpr
    (.inr (.inl (by decide)))⟩

/-! ## A secret that is too long for its column -/

/-- A secret of one repeated ASCII character. -/
def repeated (n : Nat) : String := String.ofList (List.replicate n 'a')

theorem length_repeated (n : Nat) : (repeated n).length = n := by
  rw [repeated, String.length_ofList, List.length_replicate]

theorem utf8Length_repeated (n : Nat) : utf8Length (repeated n) = n := by
  have hsize : 'a'.utf8Size = 1 := by decide
  simp [utf8Length, repeated, hsize]

theorem plain_repeated (n : Nat) : ¬ Prefixed (repeated n) := by
  have hnone : tokenOf (repeated n) = none := by
    rw [tokenOf, repeated, String.toList_ofList]
    cases n <;> rfl
  simp [hnone]

/-- The shortest one that does not fit is 704 characters long, and the validator accepts it. -/
theorem repeated_overflows : (repeated 704).length ≤ maxLength ∧
    ∃ column, getPrepValue Fernet.padded exampleKey () (repeated 704) = .ok column ∧
      maxLength < column.length := by
  have hvalid : (repeated 704).length ≤ maxLength := by
    rw [length_repeated]
    decide
  refine ⟨hvalid, overflow padded_lawful.length_encrypt getFernet_exampleKey () hvalid
    (plain_repeated 704) ?_⟩
  rw [utf8Length_repeated]
  decide

end WebhookRelay
