import Mathlib.Algebra.BigOperators.Group.List.Basic
import Mathlib.Algebra.GroupWithZero.Nat
import Mathlib.Algebra.Order.BigOperators.Group.List
import Mathlib.Algebra.Order.Ring.Nat
import Mathlib.Data.List.DropRight

/-!
# Fernet tokens

An authenticated cipher on texts whose tokens are texts again. `Fernet` has the operations,
`Fernet.Lawful` what is known about them: a token can be read under the key it was made
under and under no other, nothing else can be read, and the length of a token follows from
the length of the message.

`Fernet.padded` is a small cipher with these laws, so that programs over a cipher can be
run.
-/

/-- The operations of the cipher. `parse` accepts the text of a key, and a nonce is what
encryption draws at random; `decrypt` gives `none` where it raises `InvalidToken`. -/
structure Fernet where
  Key : Type
  Nonce : Type
  parse : String → Option Key
  encrypt : Key → Nonce → String → String
  decrypt : Key → String → Option String

namespace Fernet

/-- The number of bytes of a text in UTF-8. -/
def utf8Length (text : String) : Nat := (text.toList.map Char.utf8Size).sum

theorem length_le_utf8Length (text : String) : text.length ≤ utf8Length text := by
  rw [← String.length_toList, utf8Length, ← List.length_map Char.utf8Size]
  refine List.length_le_sum_of_one_le _ fun size hsize => ?_
  obtain ⟨c, -, rfl⟩ := List.mem_map.mp hsize
  exact c.utf8Size_pos

/-- The length of a token: version, time, nonce, padded blocks and tag in padded base64. -/
def tokenLength (bytes : Nat) : Nat := 4 * ((57 + 16 * (bytes / 16 + 1) + 2) / 3)

theorem lt_tokenLength (bytes : Nat) : bytes + 2 < tokenLength bytes := by
  unfold tokenLength
  omega

/-- What is assumed of the cipher. -/
structure Lawful (F : Fernet) : Prop where
  parse_empty : F.parse "" = none
  decrypt_encrypt : ∀ k n s, F.decrypt k (F.encrypt k n s) = some s
  key_unique : ∀ {k k' n s s'}, F.decrypt k (F.encrypt k' n s) = some s' → k = k'
  authentic : ∀ {k t s}, F.decrypt k t = some s → ∃ n, F.encrypt k n s = t
  length_encrypt : ∀ k n s, (F.encrypt k n s).length = tokenLength (utf8Length s)

namespace Lawful

variable {F : Fernet} (h : F.Lawful)

include h

/-- A token that two keys read the same or not was made under both, so they are one key. -/
theorem eq_of_decrypt {k k' : F.Key} {t s s' : String} (hk : F.decrypt k t = some s)
    (hk' : F.decrypt k' t = some s') : k = k' ∧ s = s' := by
  obtain ⟨n, rfl⟩ := h.authentic hk'
  obtain rfl := h.key_unique hk
  exact ⟨rfl, Option.some.inj (hk.symm.trans hk')⟩

theorem decrypt_other {k k' : F.Key} (hne : k ≠ k') (n : F.Nonce) (s : String) :
    F.decrypt k (F.encrypt k' n s) = none := by
  cases hd : F.decrypt k (F.encrypt k' n s) with
  | none => rfl
  | some s' => exact absurd (h.key_unique hd) hne

/-- A token is longer than the message in it. -/
theorem length_lt {k : F.Key} {t s : String} (hd : F.decrypt k t = some s) :
    s.length < t.length := by
  obtain ⟨n, rfl⟩ := h.authentic hd
  have := length_le_utf8Length s
  have := lt_tokenLength (utf8Length s)
  have := h.length_encrypt k n s
  omega

end Lawful

/-! ## A small cipher -/

section Padded

/-- The characters of a token: the key, the message, an end mark and padding. -/
def paddedToken (key : Char) (message : String) : List Char :=
  key :: (message.toList ++ '|' ::
    List.replicate (tokenLength (utf8Length message) - message.length - 2) '#')

/-- The message between the key and the end mark. -/
def paddedMessage (token : List Char) : String :=
  String.ofList ((token.tail.rdropWhile fun c => c = '#').dropLast)

/-- The message of a token that was made under the key. -/
def paddedDecrypt (key : Char) (token : String) : Option String :=
  if String.ofList (paddedToken key (paddedMessage token.toList)) = token
  then some (paddedMessage token.toList) else none

/-- A cipher without secrecy: the key is a character, written in front of the message. -/
def padded : Fernet where
  Key := Char
  Nonce := Unit
  parse text := text.toList.head?
  encrypt key _ message := String.ofList (paddedToken key message)
  decrypt := paddedDecrypt

theorem paddedMessage_paddedToken (key : Char) (message : String) :
    paddedMessage (paddedToken key message) = message := by
  have hpad : ∀ n, (message.toList ++ '|' :: List.replicate n '#').rdropWhile
      (fun c => c = '#') = message.toList ++ ['|'] := by
    intro n
    rw [← List.singleton_append, ← List.append_assoc]
    induction n with
    | zero =>
      rw [List.replicate_zero, List.append_nil]
      exact List.rdropWhile_concat_neg (fun c => decide (c = '#')) _ '|' (by decide)
    | succ n ih =>
      rw [List.replicate_succ', ← List.append_assoc, List.rdropWhile_concat_pos _ _ _ (by simp)]
      exact ih
  rw [paddedMessage, paddedToken, List.tail_cons, hpad, List.dropLast_concat,
    String.ofList_toList]

theorem paddedDecrypt_eq_some_iff {key : Char} {token message : String} :
    paddedDecrypt key token = some message ↔ String.ofList (paddedToken key message) = token := by
  rw [paddedDecrypt, Option.ite_none_right_eq_some, Option.some.injEq]
  constructor
  · rintro ⟨htoken, rfl⟩
    exact htoken
  · rintro rfl
    simp [paddedMessage_paddedToken]

theorem length_paddedToken (key : Char) (message : String) :
    (paddedToken key message).length = tokenLength (utf8Length message) := by
  have := length_le_utf8Length message
  have := lt_tokenLength (utf8Length message)
  simp only [paddedToken, List.length_cons, List.length_append, List.length_replicate,
    String.length_toList]
  omega

theorem padded_lawful : padded.Lawful where
  parse_empty := by decide
  decrypt_encrypt _ _ _ := paddedDecrypt_eq_some_iff.mpr rfl
  key_unique hd := (List.cons.inj (String.ofList_injective (paddedDecrypt_eq_some_iff.mp hd))).1
  authentic hd := ⟨(), paddedDecrypt_eq_some_iff.mp hd⟩
  length_encrypt k _ s := (String.length_ofList).trans (length_paddedToken k s)

end Padded

end Fernet
