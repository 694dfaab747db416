import Mathlib.Data.List.Sort
import WebhookRelay.Library.Dictionary

/-!
# JSON values as the task sees them

The values of `json.loads`: Python's `dict` keeps insertion order, `float` is the binary64
number given by its bits, and `null` is `None`. Celery's JSON also restores a UUID or a
`datetime`, which the task only ever prints; such an object is known by its `str`. Nested
objects are read, written and pruned along lists of keys, which is what the dotted
paths of `security.py` split into.

How deeply `json` nests its calls, and how many digits of an integer it prints, is limited by
the interpreter only; these limits are left out.

## Main definitions

* `Json.truthy` — `bool(value)`.
* `Json.descend`, `Json.assign`, `Json.prune` — read, write and delete along a list of
  keys.
* `Json.WellFormed` — no object at any depth has a repeated key.
* `Json.dumps` — `json.dumps` with sorted keys and compact separators.
* `Json.hasLeaf` — whether something in the value that is no container has a property.
-/

namespace WebhookRelay

open Dictionary

inductive Json where
  | null
  | bool (b : Bool)
  | int (n : Int)
  | float (bits : UInt64)
  | str (s : String)
  | arr (items : List Json)
  | obj (members : List (String × Json))
  /-- an object of another class, given by its `str` -/
  | other (text : String)

/-- The members of a Python dictionary, in insertion order. -/
abbrev Members := List (String × Json)

namespace Json

/-- `bool(value)`; both zeros of binary64 are falsy. -/
def truthy : Json → Bool
  | .null => false
  | .bool b => b
  | .int n => n ≠ 0
  | .float bits => bits ≠ 0 ∧ bits ≠ 0x8000000000000000
  | .str s => s ≠ ""
  | .arr items => !items.isEmpty
  | .obj members => !members.isEmpty
  | .other _ => true

/-- The members of a value that is a `dict`, and none of any other value. -/
def members : Json → Members
  | .obj ms => ms
  | _ => []

/-- `isinstance(value, dict)`. -/
def isDict : Json → Bool
  | .obj _ => true
  | _ => false

def isNull : Json → Bool
  | .null => true
  | _ => false

/-! ## Along a list of keys -/

/-- Follow the keys through nested dictionaries; `None` as soon as one is missing. -/
def descend : Json → List String → Json
  | v, [] => v
  | .obj ms, k :: ks => match ms.lookup k with
    | some v => v.descend ks
    | none => .null
  | _, _ :: _ => .null

/-- Write `v` at the end of the keys, replacing whatever is in the way by a dictionary. -/
def assign : Members → List String → Json → Members
  | ms, [], _ => ms
  | ms, [k], v => set ms k v
  | ms, k :: k' :: ks, v =>
    set ms k (.obj (assign (((ms.lookup k).map members).getD []) (k' :: ks) v))

/-- Delete the last key below the others, if they lead through dictionaries to it. -/
def prune : Json → List String → Json
  | .obj ms, [k] => .obj (erase ms k)
  | .obj ms, k :: ks => .obj (modify ms k fun v => v.prune ks)
  | v, _ => v

/-! ## Well-formed values -/

/-- What Python's `dict` guarantees by itself: at no depth does a key occur twice. -/
inductive WellFormed : Json → Prop where
  | null : WellFormed .null
  | bool (b : Bool) : WellFormed (.bool b)
  | int (n : Int) : WellFormed (.int n)
  | float (bits : UInt64) : WellFormed (.float bits)
  | str (s : String) : WellFormed (.str s)
  | arr {items : List Json} : (∀ v ∈ items, WellFormed v) → WellFormed (.arr items)
  | obj {ms : Members} : (keys ms).Nodup → (∀ e ∈ ms, WellFormed e.2) → WellFormed (.obj ms)
  | other (text : String) : WellFormed (.other text)

theorem WellFormed.keys_nodup {ms : Members} (h : WellFormed (.obj ms)) : (keys ms).Nodup := by
  cases h
  assumption

theorem WellFormed.member {ms : Members} (h : WellFormed (.obj ms)) {e : String × Json}
    (he : e ∈ ms) : WellFormed e.2 := by
  cases h with
  | obj _ hm => exact hm e he

theorem WellFormed.lookup {ms : Members} (h : WellFormed (.obj ms)) {k : String} {v : Json}
    (hv : ms.lookup k = some v) : WellFormed v := h.member (mem_of_lookup hv)

theorem WellFormed.set {ms : Members} (h : WellFormed (.obj ms)) (k : String) {v : Json}
    (hv : WellFormed v) : WellFormed (.obj (set ms k v)) := by
  refine .obj (nodup_keys_set h.keys_nodup k v) fun e he => ?_
  rcases mem_set he with rfl | he
  · exact hv
  · exact h.member he

theorem WellFormed.erase {ms : Members} (h : WellFormed (.obj ms)) (k : String) :
    WellFormed (.obj (erase ms k)) :=
  .obj (nodup_keys_erase h.keys_nodup k) fun _ he => h.member (List.mem_of_mem_filter he)

theorem WellFormed.modify {ms : Members} (h : WellFormed (.obj ms)) (k : String)
    {f : Json → Json} (hf : ∀ v, WellFormed v → WellFormed (f v)) :
    WellFormed (.obj (modify ms k f)) := by
  refine .obj (by simpa using h.keys_nodup) fun e he => ?_
  rcases mem_modify he with he | ⟨v, hv, rfl⟩
  · exact h.member he
  · exact hf v (h.member hv)

theorem WellFormed.members {v : Json} (h : WellFormed v) : WellFormed (.obj v.members) := by
  cases h with
  | obj hk hm => exact .obj hk hm
  | _ => exact .obj (by simp [Json.members, keys]) (by simp [Json.members])

theorem WellFormed.descend {v : Json} (h : WellFormed v) (ks : List String) :
    WellFormed (v.descend ks) := by
  induction ks generalizing v with
  | nil => simpa [Json.descend] using h
  | cons k ks ih =>
    cases v with
    | obj ms =>
      rw [Json.descend]
      split
      · next hv => exact ih (h.lookup hv)
      · exact .null
    | _ => exact .null

theorem WellFormed.assign {ms : Members} (h : WellFormed (.obj ms)) (ks : List String)
    {v : Json} (hv : WellFormed v) : WellFormed (.obj (assign ms ks v)) := by
  fun_induction Json.assign ms ks v with
  | case1 => exact h
  | case2 ms k v => exact h.set k hv
  | case3 ms k k' ks v ih =>
    refine h.set k (ih ?_ hv)
    cases hk : ms.lookup k with
    | none => exact .obj (by simp [keys]) (by simp)
    | some c => exact (h.lookup hk).members

theorem WellFormed.prune {v : Json} (h : WellFormed v) (ks : List String) :
    WellFormed (v.prune ks) := by
  fun_induction Json.prune v ks with
  | case1 ms k => exact h.erase k
  | case2 ms k ks _ ih => exact h.modify k fun v hv => ih v hv
  | case3 => exact h

/-! ## Checking a value -/

mutual

def isWellFormed : Json → Bool
  | .arr items => isWellFormedItems items
  | .obj ms => (keys ms).Nodup && isWellFormedMembers ms
  | _ => true

def isWellFormedItems : List Json → Bool
  | [] => true
  | v :: vs => v.isWellFormed && isWellFormedItems vs

def isWellFormedMembers : List (String × Json) → Bool
  | [] => true
  | e :: ms => e.2.isWellFormed && isWellFormedMembers ms

end

theorem isWellFormedItems_iff (items : List Json) :
    isWellFormedItems items ↔ ∀ v ∈ items, v.isWellFormed := by
  induction items with
  | nil => simp [isWellFormedItems]
  | cons v vs ih => simp [isWellFormedItems, ih]

theorem isWellFormedMembers_iff (ms : Members) :
    isWellFormedMembers ms ↔ ∀ e ∈ ms, e.2.isWellFormed := by
  induction ms with
  | nil => simp [isWellFormedMembers]
  | cons e ms ih => simp [isWellFormedMembers, ih]

theorem WellFormed.isWellFormed {v : Json} (h : WellFormed v) : v.isWellFormed := by
  induction h with
  | arr _ ih => exact (isWellFormedItems_iff _).mpr ih
  | obj hkeys _ ih =>
    rw [Json.isWellFormed, Bool.and_eq_true, decide_eq_true_eq]
    exact ⟨hkeys, (isWellFormedMembers_iff _).mpr ih⟩
  | _ => rfl

mutual

theorem wellFormed_of_isWellFormed : ∀ v : Json, v.isWellFormed → WellFormed v
  | .null, _ => .null
  | .bool b, _ => .bool b
  | .int n, _ => .int n
  | .float bits, _ => .float bits
  | .str s, _ => .str s
  | .arr items, h => .arr (wellFormed_of_isWellFormedItems items h)
  | .obj ms, h => by
    rw [Json.isWellFormed, Bool.and_eq_true, decide_eq_true_eq] at h
    exact .obj h.1 (wellFormed_of_isWellFormedMembers ms h.2)
  | .other text, _ => .other text

theorem wellFormed_of_isWellFormedItems :
    ∀ items : List Json, isWellFormedItems items → ∀ v ∈ items, WellFormed v
  | [], _ => by simp
  | v :: vs, h => by
    rw [isWellFormedItems, Bool.and_eq_true] at h
    exact List.forall_mem_cons.mpr
      ⟨wellFormed_of_isWellFormed v h.1, wellFormed_of_isWellFormedItems vs h.2⟩

theorem wellFormed_of_isWellFormedMembers :
    ∀ ms : List (String × Json), isWellFormedMembers ms → ∀ e ∈ ms, WellFormed e.2
  | [], _ => by simp
  | e :: ms, h => by
    rw [isWellFormedMembers, Bool.and_eq_true] at h
    exact List.forall_mem_cons.mpr
      ⟨wellFormed_of_isWellFormed e.2 h.1, wellFormed_of_isWellFormedMembers ms h.2⟩

end

instance : DecidablePred WellFormed := fun v =>
  decidable_of_iff v.isWellFormed ⟨wellFormed_of_isWellFormed v, fun h => h.isWellFormed⟩

end Json

/-- A JSON object: what a delivery task is given and what it sends. -/
structure Payload where
  members : Members
  wellFormed : Json.WellFormed (.obj members)

/-- The payload without members. -/
def Payload.empty : Payload := ⟨[], .obj (by simp [keys]) (by simp)⟩

namespace Json

/-! ## Serialisation -/

/-- `\u` and four hexadecimal digits. -/
def unicodeEscape (n : Nat) : String :=
  "\\u" ++ String.ofList [Nat.digitChar (n / 4096 % 16), Nat.digitChar (n / 256 % 16),
    Nat.digitChar (n / 16 % 16), Nat.digitChar (n % 16)]

/-- One character of `json.dumps` with `ensure_ascii`: characters beyond the basic plane
become a surrogate pair. -/
def escapeChar (c : Char) : String :=
  let n := c.toNat
  if n = 34 then "\\\""
  else if n = 92 then "\\\\"
  else if n = 10 then "\\n"
  else if n = 13 then "\\r"
  else if n = 9 then "\\t"
  else if n = 8 then "\\b"
  else if n = 12 then "\\f"
  else if 32 ≤ n ∧ n ≤ 126 then String.singleton c
  else if n < 0x10000 then unicodeEscape n
  else
    unicodeEscape (0xd800 + (n - 0x10000) / 0x400) ++
      unicodeEscape (0xdc00 + (n - 0x10000) % 0x400)

def quote (s : String) : String := "\"" ++ String.join (s.toList.map escapeChar) ++ "\""

mutual

/-- `json.dumps(value, default=str, sort_keys=True, separators=(",", ":"))`, given
`float.__repr__`. -/
def dumps (floatRepr : UInt64 → String) : Json → String
  | .null => "null"
  | .bool b => if b then "true" else "false"
  | .int n => toString n
  | .float bits => floatRepr bits
  | .str s => quote s
  | .arr items => "[" ++ ",".intercalate (dumpsItems floatRepr items) ++ "]"
  | .obj ms =>
    let sorted := (dumpsMembers floatRepr ms).insertionSort fun e f => e.1 ≤ f.1
    "\x7b" ++ ",".intercalate (sorted.map fun e => quote e.1 ++ ":" ++ e.2) ++ "\x7d"
  | .other text => quote text

def dumpsItems (floatRepr : UInt64 → String) : List Json → List String
  | [] => []
  | v :: vs => v.dumps floatRepr :: dumpsItems floatRepr vs

def dumpsMembers (floatRepr : UInt64 → String) :
    List (String × Json) → List (String × String)
  | [] => []
  | e :: ms => (e.1, e.2.dumps floatRepr) :: dumpsMembers floatRepr ms

end

/-! ## Leaves -/

mutual

/-- Something in the value that is neither a list nor a dictionary has the property. -/
def hasLeaf (p : Json → Bool) : Json → Bool
  | .arr items => hasLeafItems p items
  | .obj ms => hasLeafMembers p ms
  | v => p v

def hasLeafItems (p : Json → Bool) : List Json → Bool
  | [] => false
  | v :: vs => v.hasLeaf p || hasLeafItems p vs

def hasLeafMembers (p : Json → Bool) : List (String × Json) → Bool
  | [] => false
  | e :: ms => e.2.hasLeaf p || hasLeafMembers p ms

end

/-- An object that `json` has no form for. -/
def isOther : Json → Bool
  | .other _ => true
  | _ => false

/-- Not-a-number or an infinity, which `json` prints although JSON has no form for it. -/
def isNonFinite : Json → Bool
  | .float bits => bits &&& 0x7ff0000000000000 = 0x7ff0000000000000
  | _ => false

end Json

end WebhookRelay
