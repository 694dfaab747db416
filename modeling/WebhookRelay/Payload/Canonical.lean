import Std.Data.String.ToInt
import WebhookRelay.Library.Codes
import WebhookRelay.Model.Security
import WebhookRelay.Payload.Same

/-!
# The serialised payload

`serialize_payload` sorts the keys and leaves no choice about separators and escapes, so what is
signed, hashed and sent is the same text for the same value. Here is the other direction: the
text says which value it is, except that an object of another class, such as a UUID, is written
as the string that is its `str`.

## Main results

* `determined_quote` — a quoted string is read back from the escapes.
* `serialized_same_iff` — two payloads are serialised to the same bytes exactly if they are
  printed the same up to the order of their keys.
-/

namespace WebhookRelay

open Coding Dictionary

namespace Json

/-! ## Escapes -/

/-- The escapes of one letter, with the characters that they stand for. -/
def shortEscapes : List (Char × Char) :=
  [('"', '"'), ('\\', '\\'), ('n', '\n'), ('r', '\r'), ('t', '\t'), ('b', '\x08'), ('f', '\x0c')]

/-- The four hexadecimal digits of a unit of UTF-16. -/
def hexDigits (n : Nat) : List Char :=
  [Nat.digitChar (n / 4096 % 16), Nat.digitChar (n / 256 % 16), Nat.digitChar (n / 16 % 16),
    Nat.digitChar (n % 16)]

theorem digitChar_inj : ∀ m < 16, ∀ n < 16, Nat.digitChar m = Nat.digitChar n → m = n := by
  decide

theorem hexDigits_inj {m n : Nat} (hm : m < 0x10000) (hn : n < 0x10000)
    (h : hexDigits m = hexDigits n) : m = n := by
  simp only [hexDigits, List.cons.injEq, and_true] at h
  obtain ⟨h₁, h₂, h₃, h₄⟩ := h
  have h₁ := digitChar_inj _ (Nat.mod_lt _ (by decide)) _ (Nat.mod_lt _ (by decide)) h₁
  have h₂ := digitChar_inj _ (Nat.mod_lt _ (by decide)) _ (Nat.mod_lt _ (by decide)) h₂
  have h₃ := digitChar_inj _ (Nat.mod_lt _ (by decide)) _ (Nat.mod_lt _ (by decide)) h₃
  have h₄ := digitChar_inj _ (Nat.mod_lt _ (by decide)) _ (Nat.mod_lt _ (by decide)) h₄
  omega

/-- What a character is escaped as. -/
inductive Escape (c : Char) : List Char → Prop where
  | plain : 32 ≤ c.toNat → c.toNat ≤ 126 → c ≠ '"' → c ≠ '\\' → Escape c [c]
  | short {letter : Char} : (letter, c) ∈ shortEscapes → Escape c ['\\', letter]
  | unit : c.toNat < 0x10000 → Escape c ('\\' :: 'u' :: hexDigits c.toNat)
  | pair : 0x10000 ≤ c.toNat → Escape c
      ('\\' :: 'u' :: (hexDigits (0xd800 + (c.toNat - 0x10000) / 0x400) ++
        '\\' :: 'u' :: hexDigits (0xdc00 + (c.toNat - 0x10000) % 0x400)))

theorem toList_unicodeEscape (n : Nat) :
    (unicodeEscape n).toList = '\\' :: 'u' :: hexDigits n := by
  simp [unicodeEscape, hexDigits]

theorem escape_escapeChar (c : Char) : Escape c (escapeChar c).toList := by
  have hchar {d : Char} (h : c.toNat = d.toNat) : c = d := Char.toNat_inj.mp h
  simp only [escapeChar]
  split
  · next h => exact hchar (d := '"') h ▸ .short (by decide)
  split
  · next h => exact hchar (d := '\\') h ▸ .short (by decide)
  split
  · next h => exact hchar (d := '\n') h ▸ .short (by decide)
  split
  · next h => exact hchar (d := '\r') h ▸ .short (by decide)
  split
  · next h => exact hchar (d := '\t') h ▸ .short (by decide)
  split
  · next h => exact hchar (d := '\x08') h ▸ .short (by decide)
  split
  · next h => exact hchar (d := '\x0c') h ▸ .short (by decide)
  split
  · next hquote hbackslash _ _ _ _ _ h =>
    rw [String.toList_singleton]
    exact .plain h.1 h.2 (fun heq => hquote (congrArg Char.toNat heq))
      fun heq => hbackslash (congrArg Char.toNat heq)
  split
  · next h =>
    rw [toList_unicodeEscape]
    exact .unit h
  · next h =>
    rw [String.toList_append, toList_unicodeEscape, toList_unicodeEscape]
    exact .pair (Nat.le_of_not_lt h)

/-- No character is a surrogate. -/
theorem toNat_valid (c : Char) :
    c.toNat < 0xd800 ∨ 0xdfff < c.toNat ∧ c.toNat < 0x110000 := c.valid

theorem append_hexDigits {m n : Nat} (hm : m < 0x10000) (hn : n < 0x10000) {r s : List Char}
    (h : hexDigits m ++ r = hexDigits n ++ s) : m = n ∧ r = s := by
  obtain ⟨hdigits, hrest⟩ := List.append_inj h rfl
  exact ⟨hexDigits_inj hm hn hdigits, hrest⟩

theorem shortEscapes_inj : ∀ e ∈ shortEscapes, ∀ f ∈ shortEscapes, e.1 = f.1 → e.2 = f.2 := by
  decide

/-- An escape says which character it is for and where it ends. -/
theorem Escape.determined {c d : Char} {x y r s : List Char} (hx : Escape c x) (hy : Escape d y)
    (h : x ++ r = y ++ s) : c = d ∧ r = s := by
  have hc := toNat_valid c
  have hd := toNat_valid d
  have hu : ∀ {c : Char}, ('u', c) ∉ shortEscapes := by
    intro c hmem
    simp [shortEscapes] at hmem
  cases hx with
  | plain hlow hhigh hquote hbackslash =>
    cases hy with
    | plain => simpa using h
    | _ => exact absurd (List.cons_eq_cons.mp h).1 hbackslash
  | short hmem =>
    cases hy with
    | plain hlow hhigh hquote hbackslash =>
      exact absurd (List.cons_eq_cons.mp h).1.symm hbackslash
    | short hmem' =>
      simp only [List.cons_append, List.nil_append, List.cons.injEq, true_and] at h
      obtain ⟨rfl, hrest⟩ := h
      exact ⟨shortEscapes_inj _ hmem _ hmem' rfl, hrest⟩
    | _ =>
      simp only [List.cons_append, List.nil_append, List.cons.injEq, true_and] at h
      exact absurd (h.1 ▸ hmem) hu
  | unit hunit =>
    cases hy with
    | plain hlow hhigh hquote hbackslash =>
      exact absurd (List.cons_eq_cons.mp h).1.symm hbackslash
    | short hmem' =>
      simp only [List.cons_append, List.nil_append, List.cons.injEq, true_and] at h
      exact absurd (h.1 ▸ hmem') hu
    | unit hunit' =>
      simp only [List.cons_append, List.cons.injEq, true_and] at h
      obtain ⟨hsame, hrest⟩ := append_hexDigits hunit hunit' h
      exact ⟨Char.toNat_inj.mp hsame, hrest⟩
    | pair hpair =>
      simp only [List.cons_append, List.append_assoc, List.cons.injEq, true_and] at h
      obtain ⟨hsame, -⟩ := append_hexDigits hunit (by omega) h
      omega
  | pair hpair =>
    cases hy with
    | plain hlow hhigh hquote hbackslash =>
      exact absurd (List.cons_eq_cons.mp h).1.symm hbackslash
    | short hmem' =>
      simp only [List.cons_append, List.nil_append, List.cons.injEq, true_and] at h
      exact absurd (h.1 ▸ hmem') hu
    | unit hunit' =>
      simp only [List.cons_append, List.append_assoc, List.cons.injEq, true_and] at h
      obtain ⟨hsame, -⟩ := append_hexDigits (by omega) hunit' h
      omega
    | pair hpair' =>
      simp only [List.cons_append, List.append_assoc, List.cons.injEq, true_and] at h
      obtain ⟨hhigh, hlater⟩ := append_hexDigits (by omega) (by omega) h
      simp only [List.cons.injEq, true_and] at hlater
      obtain ⟨hlow, hrest⟩ := append_hexDigits (by omega) (by omega) hlater
      exact ⟨Char.toNat_inj.mp (by omega), hrest⟩

theorem Escape.start {c : Char} {x : List Char} (h : Escape c x) :
    ∃ first rest, x = first :: rest ∧ first ≠ '"' := by
  cases h with
  | plain _ _ hquote => exact ⟨c, [], rfl, hquote⟩
  | _ => exact ⟨'\\', _, rfl, by decide⟩

/-! ## Strings -/

/-- The characters after the opening quote. -/
def writeQuoted (s : String) : List Char :=
  s.toList.flatMap (fun c => (escapeChar c).toList) ++ ['"']

theorem toList_quote (s : String) : (quote s).toList = '"' :: writeQuoted s := by
  simp [quote, writeQuoted, List.flatMap_map]

/-- A quoted string is read back from the escapes. -/
theorem determined_quote (s : String) : Determined (fun _ => True) Eq writeQuoted s := by
  intro t r rest _ _ h
  obtain ⟨hsame, hrest⟩ := determined_terminated (fun c => (escape_escapeChar c).start)
    (fun c d _ _ _ _ h => (escape_escapeChar c).determined (escape_escapeChar d) h)
    s.toList t.toList r rest trivial trivial h
  exact ⟨String.toList_injective hsame, hrest⟩

/-! ## Numbers and names -/

/-- The symbols that separate and enclose. -/
def delimiters : List Char := ['"', ',', ':', '[', ']', '\x7b', '\x7d']

/-- A symbol of a number or of a name. -/
abbrev InWord (c : Char) : Prop := c ∉ delimiters

/-- Not-a-number has many representations and one name. -/
def isNaN (bits : UInt64) : Bool := 0x7ff0000000000000 < bits &&& 0x7fffffffffffffff

/-- What `float.__repr__` keeps to: a float is a word of its own, which is neither that of an
integer nor a name, and tells the number. -/
structure FloatText (floatRepr : UInt64 → String) : Prop where
  inWord : ∀ bits, ∀ c ∈ (floatRepr bits).toList, InWord c
  ne_empty : ∀ bits, floatRepr bits ≠ ""
  ne_int : ∀ bits (n : Int), floatRepr bits ≠ toString n
  ne_name : ∀ bits, floatRepr bits ∉ ["null", "true", "false"]
  injective : ∀ bits bits', isNaN bits = false → isNaN bits' = false →
    floatRepr bits = floatRepr bits' → bits = bits'

/-- No number in the value is not a number. -/
inductive Numeric : Json → Prop where
  | null : Numeric .null
  | bool (b : Bool) : Numeric (.bool b)
  | int (n : Int) : Numeric (.int n)
  | float {bits : UInt64} : isNaN bits = false → Numeric (.float bits)
  | str (s : String) : Numeric (.str s)
  | arr {items : List Json} : (∀ v ∈ items, Numeric v) → Numeric (.arr items)
  | obj {ms : Members} : (∀ e ∈ ms, Numeric e.2) → Numeric (.obj ms)

/-- The same value, unless there is something in it that is not a number. -/
def SameNumeric (v w : Json) : Prop := Numeric v → Numeric w → v.Same w

/-- The value is written as one word. -/
def isWord : Json → Bool
  | .null | .bool _ | .int _ | .float _ => true
  | _ => false

theorem mem_toString_int {n : Int} {c : Char} (h : c ∈ (toString n).toList) :
    c.isDigit ∨ c = '-' := by
  have hnat (m : Nat) (h : c ∈ m.repr.toList) : c.isDigit := by
    rw [Nat.repr, String.toList_ofList] at h
    exact Nat.isDigit_of_mem_toDigits (by decide) (by decide) h
  cases n with
  | ofNat m => exact .inl (hnat m h)
  | negSucc m =>
    change c ∈ ("-" ++ (m + 1).repr).toList at h
    rw [String.toList_append] at h
    rcases List.mem_append.mp h with h | h
    · exact .inr (List.mem_singleton.mp h)
    · exact .inl (hnat _ h)

theorem toString_int_ne_name (n : Int) : toString n ∉ ["null", "true", "false"] := by
  have hletter : ∀ name ∈ ["null", "true", "false"], ∃ c ∈ name.toList,
      ¬ (c.isDigit ∨ c = '-') := by
    simp
  intro hmem
  obtain ⟨c, hc, hnot⟩ := hletter _ hmem
  exact hnot (mem_toString_int hc)

theorem toString_int_ne_empty (n : Int) : toString n ≠ "" := by
  cases n with
  | ofNat m => exact Nat.repr_ne_empty
  | negSucc m => exact fun h => absurd (congrArg String.length h) (by simp [Int.repr])

theorem inWord_of_digit {c : Char} (h : c.isDigit ∨ c = '-') : InWord c := by
  intro hmem
  have hnone : ∀ c ∈ delimiters, ¬ (c.isDigit ∨ c = '-') := by simp [delimiters, Char.isDigit]
  exact hnone c hmem h

/-- The value is a name: `null`, `true` or `false`. -/
def isName : Json → Bool
  | .null | .bool _ => true
  | _ => false

section Words

variable {floatRepr : UInt64 → String}

theorem mem_names {v : Json} (h : v.isName) : v.dumps floatRepr ∈ ["null", "true", "false"] := by
  cases v with
  | null => simp [dumps]
  | bool b => cases b <;> simp [dumps]
  | _ => cases h

theorem eq_of_names {v w : Json} (hv : v.isName) (hw : w.isName)
    (h : v.dumps floatRepr = w.dumps floatRepr) : v = w := by
  cases v with
  | null =>
    cases w with
    | null => rfl
    | bool b => cases b <;> simp [dumps] at h
    | _ => cases hw
  | bool b =>
    cases w with
    | null => cases b <;> simp [dumps] at h
    | bool b' => cases b <;> cases b' <;> simp [dumps] at h ⊢
    | _ => cases hw
  | _ => cases hv

variable (hfloat : FloatText floatRepr)

include hfloat

theorem inWord_of_word {v : Json} (h : v.isWord) : ∀ c ∈ (v.dumps floatRepr).toList, InWord c := by
  have hnames : ∀ name ∈ ["null", "true", "false"], ∀ c ∈ name.toList, InWord c := by
    simp [InWord, delimiters]
  cases v with
  | null | bool b => exact hnames _ (mem_names rfl)
  | int n => exact fun c hc => inWord_of_digit (mem_toString_int hc)
  | float bits => exact hfloat.inWord bits
  | _ => cases h

theorem word_ne_empty {v : Json} (h : v.isWord) : v.dumps floatRepr ≠ "" := by
  have hnames : ∀ name ∈ ["null", "true", "false"], name ≠ "" := by decide
  cases v with
  | null | bool b => exact hnames _ (mem_names rfl)
  | int n => exact toString_int_ne_empty n
  | float bits => exact hfloat.ne_empty bits
  | _ => cases h

theorem not_mem_names {v : Json} (h : v.isWord) (hname : ¬ v.isName) :
    v.dumps floatRepr ∉ ["null", "true", "false"] := by
  cases v with
  | null | bool b => exact absurd rfl hname
  | int n => exact toString_int_ne_name n
  | float bits => exact hfloat.ne_name bits
  | _ => cases h

/-- Words are the same only for the same value. -/
theorem same_of_word {v w : Json} (hv : v.isWord) (hw : w.isWord)
    (h : v.dumps floatRepr = w.dumps floatRepr) : SameNumeric v w := by
  by_cases hname : v.isName
  · by_cases hname' : w.isName
    · obtain rfl := eq_of_names hname hname' h
      exact fun _ _ => .refl v
    · exact absurd (h ▸ mem_names hname) (not_mem_names hfloat hw hname')
  by_cases hname' : w.isName
  · exact absurd (h ▸ mem_names hname') (not_mem_names hfloat hv hname)
  cases v with
  | int n =>
    cases w with
    | int n' =>
      obtain rfl := Int.repr_injective h
      exact fun _ _ => .refl _
    | float bits => exact absurd h.symm (hfloat.ne_int bits n)
    | null | bool b => exact absurd rfl hname'
    | _ => cases hw
  | float bits =>
    cases w with
    | int n => exact absurd h (hfloat.ne_int bits n)
    | float bits' =>
      rintro (_ | _ | _ | hbits) (_ | _ | _ | hbits')
      obtain rfl := hfloat.injective bits bits' hbits hbits' h
      exact .refl _
    | null | bool b => exact absurd rfl hname'
    | _ => cases hw
  | null | bool b => exact absurd rfl hname
  | _ => cases hv

end Words

/-! ## Values -/

theorem dumpsItems_eq (floatRepr : UInt64 → String) (items : List Json) :
    dumpsItems floatRepr items = items.map fun v => v.dumps floatRepr := by
  induction items with
  | nil => rfl
  | cons v vs ih => rw [dumpsItems, ih, List.map_cons]

/-- The text of a value. -/
def write (floatRepr : UInt64 → String) (v : Json) : List Char := (v.dumps floatRepr).toList

/-- The text of a key and its value. -/
def writeMember (floatRepr : UInt64 → String) (e : String × Json) : List Char :=
  '"' :: (writeQuoted e.1 ++ ':' :: write floatRepr e.2)

theorem write_arr (floatRepr : UInt64 → String) (items : List Json) :
    write floatRepr (arr items) = '[' :: writeList ',' ']' (write floatRepr) items := by
  rw [← intercalate_append, write, dumps, dumpsItems_eq]
  simp [Function.comp_def]
  rfl

theorem write_obj (floatRepr : UInt64 → String) (ms : Members) :
    write floatRepr (obj ms) =
      '\x7b' :: writeList ',' '\x7d' (writeMember floatRepr) (sortKeys ms) := by
  rw [← intercalate_append, write, dumps_obj, dumpsMembers_eq, sortKeys_map]
  simp [toList_quote, Function.comp_def]
  rfl

/-- What a value that is not a word starts with. -/
def opening : Json → Option Char
  | .str _ => some '"'
  | .arr _ => some '['
  | .obj _ => some '\x7b'
  | .other _ => some '"'
  | _ => none

theorem isWord_iff (v : Json) : v.isWord ↔ v.opening = none := by
  cases v <;> simp [isWord, opening]

section Values

variable {floatRepr : UInt64 → String} (hfloat : FloatText floatRepr)

include hfloat

theorem write_start (v : Json) : ∃ c t, write floatRepr v = c :: t ∧
    (v.opening = some c ∨ v.opening = none ∧ InWord c) := by
  have hword : v.isWord → v.opening = none → ∃ c t, write floatRepr v = c :: t ∧
      (v.opening = some c ∨ v.opening = none ∧ InWord c) := by
    intro hword hopening
    obtain ⟨c, t, htext⟩ := List.exists_cons_of_ne_nil (l := write floatRepr v)
      fun h => word_ne_empty hfloat hword (String.toList_injective h)
    have hc : c ∈ write floatRepr v := by simp [htext]
    exact ⟨c, t, htext, .inr ⟨hopening, inWord_of_word hfloat hword c hc⟩⟩
  cases v with
  | str s | other s => exact ⟨'"', _, toList_quote s, .inl rfl⟩
  | arr items => exact ⟨'[', _, write_arr floatRepr items, .inl rfl⟩
  | obj ms => exact ⟨'\x7b', _, write_obj floatRepr ms, .inl rfl⟩
  | _ => exact hword rfl rfl

/-- Values whose texts start in the same way are of the same kind. -/
theorem opening_eq {v w : Json} {r s : List Char}
    (h : write floatRepr v ++ r = write floatRepr w ++ s) : v.opening = w.opening := by
  have hdelimiter : ∀ {v : Json} {c : Char}, v.opening = some c → ¬ InWord c := by
    intro v c hopening
    cases v <;> cases hopening <;> decide
  obtain ⟨c, t, hv, hc⟩ := write_start hfloat v
  obtain ⟨d, u, hw, hd⟩ := write_start hfloat w
  rw [hv, hw] at h
  obtain rfl : c = d := (List.cons_eq_cons.mp h).1
  rcases hc with hc | ⟨hv, hc⟩
  · rcases hd with hd | ⟨-, hd⟩
    · rw [hc, hd]
    · exact absurd hd (hdelimiter hc)
  · rcases hd with hd | ⟨hw, -⟩
    · exact absurd hc (hdelimiter hd)
    · rw [hv, hw]

theorem determined_word {v : Json} (hv : v.isWord) :
    Determined (Stops InWord) SameNumeric (write floatRepr) v := by
  intro w r s hr hs h
  have hopening := opening_eq hfloat h
  have hw : w.isWord := by
    rw [isWord_iff] at hv ⊢
    exact hopening ▸ hv
  obtain ⟨hsame, hrest⟩ :=
    append_cancel (inWord_of_word hfloat hv) (inWord_of_word hfloat hw) hr hs h
  exact ⟨same_of_word hfloat hv hw (String.toList_injective hsame), hrest⟩

omit hfloat in
theorem sorted_eq_of_same {items items' : List Json} (h : List.Forall₂ SameNumeric items items')
    (hv : ∀ v ∈ items, Numeric v) (hw : ∀ w ∈ items', Numeric w) :
    sortedItems items = sortedItems items' := by
  induction h with
  | nil => rfl
  | cons hsame _ ih =>
    rw [sortedItems, sortedItems, ih (fun v h => hv v (List.mem_cons_of_mem _ h))
      fun w h => hw w (List.mem_cons_of_mem _ h),
      show sorted _ = _ from hsame (hv _ List.mem_cons_self) (hw _ List.mem_cons_self)]

/-- The same key and the same value. -/
def SameMember (e f : String × Json) : Prop := e.1 = f.1 ∧ SameNumeric e.2 f.2

omit hfloat in
theorem sortedMembers_eq_of_same {ms ms' : Members} (h : List.Forall₂ SameMember ms ms')
    (hv : ∀ e ∈ ms, Numeric e.2) (hw : ∀ e ∈ ms', Numeric e.2) :
    sortedMembers ms = sortedMembers ms' := by
  induction h with
  | nil => rfl
  | cons hsame _ ih =>
    rw [sortedMembers, sortedMembers, ih (fun v h => hv v (List.mem_cons_of_mem _ h))
      fun w h => hw w (List.mem_cons_of_mem _ h), hsame.1,
      show sorted _ = _ from hsame.2 (hv _ List.mem_cons_self) (hw _ List.mem_cons_self)]

omit hfloat in
theorem determined_member {e : String × Json}
    (h : Determined (Stops InWord) SameNumeric (write floatRepr) e.2) :
    Determined (Stops InWord) SameMember (writeMember floatRepr) e := by
  intro f r s hr hs hmember
  simp only [writeMember, List.cons_append, List.append_assoc, List.cons.injEq, true_and]
    at hmember
  obtain ⟨hkey, hvalue⟩ := determined_quote e.1 f.1 _ _ trivial trivial hmember
  obtain ⟨hsame, hrest⟩ := h f.2 r s hr hs (List.cons_eq_cons.mp hvalue).2
  exact ⟨⟨hkey, hsame⟩, hrest⟩

/-- The text of an array is determined if those of its items are. -/
theorem determined_arr {items : List Json}
    (h : ∀ v ∈ items, Determined (Stops InWord) SameNumeric (write floatRepr) v) :
    Determined (Stops InWord) SameNumeric (write floatRepr) (arr items) := by
  intro w r s _ _ htext
  have hopening := opening_eq hfloat htext
  cases w with
  | arr items' =>
    rw [write_arr, write_arr] at htext
    have hstart (v : Json) : ∃ c t, write floatRepr v = c :: t ∧ c ≠ ']' := by
      obtain ⟨c, t, hv, hc⟩ := write_start hfloat v
      refine ⟨c, t, hv, ?_⟩
      rintro rfl
      rcases hc with hc | ⟨-, hc⟩
      · cases v <;> cases hc
      · exact absurd hc (by decide)
    obtain ⟨hitems, hrest⟩ := determined_separated (by decide) (fun _ => stops_cons.mpr (by decide))
      (fun _ => stops_cons.mpr (by decide)) hstart h items' r s trivial trivial
      (List.cons_eq_cons.mp htext).2
    refine ⟨fun hv hw => ?_, hrest⟩
    cases hv with
    | arr hv => cases hw with
      | arr hw => exact congrArg arr (sorted_eq_of_same hitems hv hw)
  | _ => cases hopening

/-- The text of an object is determined if those of its values are. -/
theorem determined_obj {ms : Members}
    (h : ∀ e ∈ ms, Determined (Stops InWord) SameNumeric (write floatRepr) e.2) :
    Determined (Stops InWord) SameNumeric (write floatRepr) (obj ms) := by
  intro w r s _ _ htext
  have hopening := opening_eq hfloat htext
  cases w with
  | obj ms' =>
    rw [write_obj, write_obj] at htext
    have hmembers : ∀ e ∈ sortKeys ms,
        Determined (Stops InWord) SameMember (writeMember floatRepr) e :=
      fun e he => determined_member (h e ((perm_sortKeys ms).mem_iff.mp he))
    obtain ⟨hsame, hrest⟩ := determined_separated (by decide)
      (fun _ => stops_cons.mpr (by decide)) (fun _ => stops_cons.mpr (by decide))
      (fun e => ⟨'"', _, rfl, by decide⟩) hmembers (sortKeys ms') r s trivial trivial
      (List.cons_eq_cons.mp htext).2
    refine ⟨fun hv hw => ?_, hrest⟩
    cases hv with
    | obj hv => cases hw with
      | obj hw =>
        have hsorted := sortedMembers_eq_of_same hsame
          (fun e he => hv e ((perm_sortKeys ms).mem_iff.mp he))
          fun e he => hw e ((perm_sortKeys ms').mem_iff.mp he)
        rw [sortedMembers_eq, sortedMembers_eq, ← sortKeys_map, ← sortKeys_map,
          ← sortedMembers_eq, ← sortedMembers_eq] at hsorted
        exact congrArg obj hsorted
  | _ => cases hopening

omit hfloat in
/-- What starts with a quote is a quoted string, and a numeric value is that string. -/
theorem quoted_of_opening (floatRepr : UInt64 → String) {v : Json} (h : v.opening = some '"') :
    ∃ s, write floatRepr v = (quote s).toList ∧ (Numeric v → v = .str s) := by
  cases v with
  | str s => exact ⟨s, rfl, fun _ => rfl⟩
  | other s => exact ⟨s, rfl, fun hnumeric => by cases hnumeric⟩
  | _ => simp [opening] at h

/-- The text of a string is determined by its quotes. -/
theorem determined_quoted {v : Json} (hv : v.opening = some '"') :
    Determined (Stops InWord) SameNumeric (write floatRepr) v := by
  intro w r rest _ _ htext
  have hw : w.opening = some '"' := opening_eq hfloat htext ▸ hv
  obtain ⟨s, hs, hstr⟩ := quoted_of_opening floatRepr hv
  obtain ⟨s', hs', hstr'⟩ := quoted_of_opening floatRepr hw
  rw [hs, hs', toList_quote, toList_quote] at htext
  obtain ⟨rfl, hrest⟩ := determined_quote s s' r rest trivial trivial
    (List.cons_eq_cons.mp htext).2
  exact ⟨fun hnumeric hnumeric' => by rw [hstr hnumeric, hstr' hnumeric'], hrest⟩

end Values

mutual

/-- The text of a value says which value it is and where it ends. -/
theorem determined_write {floatRepr : UInt64 → String} (hfloat : FloatText floatRepr) :
    ∀ v : Json, Determined (Stops InWord) SameNumeric (write floatRepr) v
  | .null | .bool _ | .int _ | .float _ => determined_word hfloat rfl
  | .str _ | .other _ => determined_quoted hfloat rfl
  | .arr items => determined_arr hfloat (determined_items hfloat items)
  | .obj ms => determined_obj hfloat (determined_members hfloat ms)

theorem determined_items {floatRepr : UInt64 → String} (hfloat : FloatText floatRepr) :
    ∀ items : List Json, ∀ v ∈ items, Determined (Stops InWord) SameNumeric (write floatRepr) v
  | [], _, h => by cases h
  | v :: vs, w, h => by
    rcases List.mem_cons.mp h with hw | h
    · rw [hw]
      exact determined_write hfloat v
    · exact determined_items hfloat vs w h

theorem determined_members {floatRepr : UInt64 → String} (hfloat : FloatText floatRepr) :
    ∀ ms : List (String × Json), ∀ e ∈ ms,
      Determined (Stops InWord) SameNumeric (write floatRepr) e.2
  | [], _, h => by cases h
  | (k, v) :: ms, e, h => by
    rcases List.mem_cons.mp h with he | h
    · rw [he]
      exact determined_write hfloat v
    · exact determined_members hfloat ms e h

end

/-! ## Objects of other classes -/

mutual

/-- The value with every object of another class replaced by its `str`. -/
def printed : Json → Json
  | .other text => .str text
  | .arr items => .arr (printedItems items)
  | .obj ms => .obj (printedMembers ms)
  | v => v

def printedItems : List Json → List Json
  | [] => []
  | v :: vs => v.printed :: printedItems vs

def printedMembers : List (String × Json) → List (String × Json)
  | [] => []
  | e :: ms => (e.1, e.2.printed) :: printedMembers ms

end

mutual

theorem dumps_printed (floatRepr : UInt64 → String) :
    ∀ v : Json, v.printed.dumps floatRepr = v.dumps floatRepr
  | .null | .bool _ | .int _ | .float _ | .str _ | .other _ => rfl
  | .arr items => by
    rw [printed, dumps, dumps, dumpsItems_printed floatRepr items]
  | .obj ms => by
    rw [printed, dumps, dumps, dumpsMembers_printed floatRepr ms]

theorem dumpsItems_printed (floatRepr : UInt64 → String) :
    ∀ items : List Json, dumpsItems floatRepr (printedItems items) = dumpsItems floatRepr items
  | [] => rfl
  | v :: vs => by
    rw [printedItems, dumpsItems, dumpsItems, dumps_printed floatRepr v,
      dumpsItems_printed floatRepr vs]

theorem dumpsMembers_printed (floatRepr : UInt64 → String) :
    ∀ ms : List (String × Json),
      dumpsMembers floatRepr (printedMembers ms) = dumpsMembers floatRepr ms
  | [] => rfl
  | e :: ms => by
    rw [printedMembers, dumpsMembers, dumpsMembers, dumps_printed floatRepr e.2,
      dumpsMembers_printed floatRepr ms]

end

end Json

open Json

/-- The serialised payload is canonical: payloads without not-a-number are serialised to the same
bytes exactly if they are the same up to the order of keys, at every depth, where an object of
another class counts as its `str`. -/
theorem serialized_same_iff (lib : Primitives) (hfloat : FloatText lib.floatRepr)
    (payload payload' : Payload) (h : Numeric (obj payload.members).printed)
    (h' : Numeric (obj payload'.members).printed) :
    serializePayload lib payload = serializePayload lib payload' ↔
      (obj payload.members).printed.Same (obj payload'.members).printed := by
  have hprinted : ∀ p : Payload,
      serializePayload lib p = (obj p.members).printed.dumps lib.floatRepr :=
    fun p => (dumps_printed lib.floatRepr _).symm
  rw [hprinted, hprinted]
  refine ⟨fun hbytes => ?_, fun hsame => hsame.dumps_eq lib.floatRepr⟩
  have htext : write lib.floatRepr (obj payload.members).printed ++ [] =
      write lib.floatRepr (obj payload'.members).printed ++ [] :=
    congrArg (· ++ []) (congrArg String.toList hbytes)
  exact (determined_write hfloat _ _ [] [] (stops_nil _) (stops_nil _) htext).1 h h'

/-- The bits of a float as a number with a fraction. -/
def bitsRepr (bits : UInt64) : String := bits.toNat.repr ++ ".0"

theorem floatText_bitsRepr : FloatText bitsRepr where
  inWord bits c hc := by
    rw [bitsRepr, String.toList_append] at hc
    rcases List.mem_append.mp hc with hc | hc
    · exact inWord_of_digit (mem_toString_int (n := (bits.toNat : Int)) hc)
    · have hsuffix : ∀ c ∈ ".0".toList, InWord c := by simp [InWord, delimiters]
      exact hsuffix c hc
  ne_empty bits h := absurd (congrArg String.length h) (by simp [bitsRepr])
  ne_int bits n h := by
    have hdot : '.' ∈ (toString n).toList := by simp [← h, bitsRepr]
    exact absurd (mem_toString_int hdot) (by decide)
  ne_name bits h := by
    have hdot : '.' ∈ (bitsRepr bits).toList := by simp [bitsRepr]
    have hnone : ∀ name ∈ ["null", "true", "false"], '.' ∉ name.toList := by simp
    exact hnone _ h hdot
  injective bits bits' _ _ h := by
    have htext := congrArg String.toList h
    rw [bitsRepr, bitsRepr, String.toList_append, String.toList_append] at htext
    exact UInt64.toNat_inj.mp
      (Nat.repr_injective (String.toList_injective (List.append_cancel_right htext)))

/-- The libraries with these floats. -/
def bitsLib : Primitives where
  floatRepr := bitsRepr
  sha256Hexdigest _ := ""
  hmacSha256Hexdigest _ _ := ""

/-- A grade with its keys in one order, and with the identifier of its event. -/
def gradeFirst : Payload where
  members := [("grade", .int 85), ("name", .str "Zoë"),
    ("id", .other "6f1cd1a2-4d07-11ee-be56-0242ac120002")]
  wellFormed := .obj (by decide) (by simp [WellFormed.int, WellFormed.str, WellFormed.other])

/-- The same grade with its keys in another order, and with the identifier as a string. -/
def nameFirst : Payload where
  members := [("name", .str "Zoë"), ("id", .str "6f1cd1a2-4d07-11ee-be56-0242ac120002"),
    ("grade", .int 85)]
  wellFormed := .obj (by decide) (by simp [WellFormed.int, WellFormed.str])

theorem serialized_same_iff_keyOrder :
    serializePayload bitsLib gradeFirst = serializePayload bitsLib nameFirst ↔
      (obj gradeFirst.members).printed.Same (obj nameFirst.members).printed :=
  serialized_same_iff bitsLib floatText_bitsRepr gradeFirst nameFirst
    (.obj (by simp [gradeFirst, printedMembers, printed, Numeric.int, Numeric.str]))
    (.obj (by simp [nameFirst, printedMembers, printed, Numeric.int, Numeric.str]))

end WebhookRelay
