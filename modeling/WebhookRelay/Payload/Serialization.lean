import WebhookRelay.Library.Folding
import WebhookRelay.Model.Serializers

/-!
# Serialised object graphs

`object_serializer` follows the references of a graph, cycles included, down to a fixed depth.
What it returns is JSON of bounded nesting under public keys, and down to that depth every object
is found where the path to it leads, in a form of its own.

## Main results

* `plain_objectSerializer` — the result is JSON, nested at most one container deeper than the
  depth that is left.
* `at?_objectSerializer` — at a path there is what the object at its end is serialised to.
* `objectSerializer_faithful` — both from the outside, with the form that each kind of object has.
-/

namespace WebhookRelay

open Dictionary

/-! ## Paths through a graph -/

/-- A step from a container into it: an item by its position, or a value by its key. -/
inductive Step where
  | item (i : Nat)
  | key (key : String)

variable {ι : Type}

/-- The key, if it is a public string. -/
def Key.public? : Key ι → Option String
  | .str key => if isPublic key then some key else none
  | .other _ => none

namespace Attributes

/-- The values with public string keys, in order. -/
def publicEntries (values : Attributes ι) : List (String × ι) :=
  values.entries.filterMap fun entry => entry.1.public?.map fun key => (key, entry.2)

theorem public?_eq_some {k : Key ι} {key : String} :
    k.public? = some key ↔ k = .str key ∧ isPublic key := by
  cases k with
  | str key' =>
    simp only [Key.public?, Option.ite_none_right_eq_some, Option.some.injEq, Key.str.injEq]
    constructor
    · rintro ⟨hpublic, rfl⟩
      exact ⟨rfl, hpublic⟩
    · rintro ⟨rfl, hpublic⟩
      exact ⟨hpublic, rfl⟩
  | other ref => simp [Key.public?]

theorem keys_publicEntries (values : Attributes ι) :
    keys values.publicEntries = (keys values.entries).filterMap Key.public? := by
  rw [keys, keys, publicEntries, List.map_filterMap, List.filterMap_map]
  refine List.filterMap_congr fun entry _ => ?_
  cases hkey : entry.1.public? <;> simp [hkey]

theorem nodup_publicEntries (values : Attributes ι) : (keys values.publicEntries).Nodup := by
  rw [keys_publicEntries]
  refine values.nodup_keys.filterMap fun k k' key hk hk' => ?_
  obtain ⟨rfl, -⟩ := public?_eq_some.mp hk
  obtain ⟨rfl, -⟩ := public?_eq_some.mp hk'
  rfl

theorem isPublic_of_mem {values : Attributes ι} {e : String × ι}
    (he : e ∈ values.publicEntries) : isPublic e.1 := by
  obtain ⟨entry, -, hentry⟩ := List.mem_filterMap.mp he
  obtain ⟨key, hkey, rfl⟩ := Option.map_eq_some_iff.mp hentry
  exact (public?_eq_some.mp hkey).2

/-- The loop over the entries writes the public ones. -/
theorem foldl_keepPublic (values : Attributes ι) (serialize : ι → Serialized ι) :
    values.entries.foldl (keepPublic serialize) [] =
      values.publicEntries.map fun e => (e.1, serialize e.2) := by
  have hnodup : (keys (values.publicEntries.map fun e => (e.1, serialize e.2))).Nodup := by
    simpa [keys, Function.comp_def] using values.nodup_publicEntries
  rw [← update_empty hnodup, update, List.foldl_map, publicEntries, List.foldl_filterMap]
  congr 1
  funext returnValue entry
  obtain ⟨k, ref⟩ := entry
  cases k with
  | str key => by_cases hpublic : isPublic key <;> simp [keepPublic, Key.public?, hpublic]
  | other ref' => rfl

end Attributes

namespace PyObject

/-- The JSON value that a primitive object is. -/
def primitive? : PyObject ι → Option Json
  | .none => some .null
  | .bool b => some (.bool b)
  | .int n => some (.int n)
  | .float bits => some (.float bits)
  | .str s => some (.str s)
  | _ => Option.none

/-- The items of a list, a tuple or a set. -/
def items? : PyObject ι → Option (List ι)
  | .list items | .tuple items | .set items => some items
  | _ => Option.none

/-- The items of a dictionary, or the attributes of an object. -/
def values? : PyObject ι → Option (Attributes ι)
  | .dict values | .object values => some values
  | _ => Option.none

/-- The object that a step leads to. -/
def child (object : PyObject ι) : Step → Option ι
  | .item i => object.items?.bind fun items => items[i]?
  | .key key => object.values?.bind fun values => values.publicEntries.lookup key

end PyObject

namespace ObjectGraph

/-- The object at the end of a path along items and public string keys. -/
def follow (g : ObjectGraph ι) : ι → List Step → Option ι
  | obj, [] => some obj
  | obj, step :: path => ((g.node obj).child step).bind fun next => g.follow next path

/-- The block types and users of `ScopeIds` are primitive. -/
def PrimitiveScopes (g : ObjectGraph ι) : Prop :=
  ∀ obj blockType defId usageId userId,
    g.node obj = .scopeIds blockType defId usageId userId →
      (g.node blockType).primitive?.isSome ∧ (g.node userId).primitive?.isSome

end ObjectGraph

namespace Serialized

def child : Serialized ι → Step → Option (Serialized ι)
  | .list items, .item i => items[i]?
  | .dict members, .key key => members.lookup key
  | _, _ => none

/-- What a path leads to in a result. -/
def at? : Serialized ι → List Step → Option (Serialized ι)
  | value, [] => some value
  | value, step :: path => (value.child step).bind fun next => next.at? path

/-- JSON whose containers are nested at most so deep, and whose keys are public. -/
inductive Plain (g : ObjectGraph ι) : Nat → Serialized ι → Prop where
  | primitive {n : Nat} {ref : ι} : (g.node ref).primitive?.isSome → Plain g n (.object ref)
  | text {n : Nat} (s : String) : Plain g n (.text s)
  | list {n : Nat} {items : List (Serialized ι)} :
      (∀ item ∈ items, Plain g n item) → Plain g (n + 1) (.list items)
  | dict {n : Nat} {members : List (String × Serialized ι)} : (keys members).Nodup →
      (∀ e ∈ members, isPublic e.1) → (∀ e ∈ members, Plain g n e.2) →
      Plain g (n + 1) (.dict members)

/-- The form that an object is serialised in, given how what it refers to is serialised. -/
inductive OwnForm (g : ObjectGraph ι) (serialize : ι → Serialized ι) (obj : ι) :
    Serialized ι → Prop where
  | primitive : (g.node obj).primitive?.isSome → OwnForm g serialize obj (.object obj)
  | scopeIds {blockType defId usageId userId : ι} :
      g.node obj = .scopeIds blockType defId usageId userId →
      OwnForm g serialize obj (.dict [("block_type", .object blockType),
        ("def_id", .text (g.str defId)), ("usage_id", .text (g.str usageId)),
        ("user_id", .object userId)])
  | opaqueKey : g.node obj = .opaqueKey → OwnForm g serialize obj (.text (g.str obj))
  | items {items : List ι} : (g.node obj).items? = some items →
      OwnForm g serialize obj (.list (items.map serialize))
  | values {values : Attributes ι} : (g.node obj).values? = some values →
      OwnForm g serialize obj (.dict (values.publicEntries.map fun e => (e.1, serialize e.2)))
  | str : g.node obj = .bare true → OwnForm g serialize obj (.text (g.str obj))
  | unserializable : g.node obj = .bare false →
      OwnForm g serialize obj (.text ("Unserializable " ++ g.typeName obj))

end Serialized

open Serialized

/-! ## One object -/

section Object

variable {g : ObjectGraph ι} {obj : ι} {depth : Nat}

theorem objectSerializer_deep (h : depth > maxSerializationDepth) :
    objectSerializer g obj depth = .text "! Depth limit reached !" := by
  rw [objectSerializer, if_pos h]

/-- Down to the depth an object is serialised in its own form. -/
theorem ownForm_objectSerializer (h : depth ≤ maxSerializationDepth) :
    OwnForm g (fun ref => objectSerializer g ref (depth + 1)) obj
      (objectSerializer g obj depth) := by
  have hdepth : ¬ depth > maxSerializationDepth := by omega
  rw [objectSerializer, if_neg hdepth]
  cases hobj : g.node obj with
  | scopeIds blockType defId usageId userId => exact .scopeIds hobj
  | opaqueKey => exact .opaqueKey hobj
  | bare hasStr =>
    cases hasStr with
    | true => exact .str hobj
    | false => exact .unserializable hobj
  | list items | tuple items | set items =>
    refine .items ?_
    rw [hobj]
    rfl
  | dict values | object values =>
    dsimp only
    rw [values.foldl_keepPublic fun value => objectSerializer g value (depth + 1)]
    refine .values ?_
    rw [hobj]
    rfl
  | _ =>
    refine .primitive ?_
    rw [hobj]
    rfl

variable {serialize : ι → Serialized ι} {value : Serialized ι}

/-- A form is JSON if what it is made of is, nested one container deeper. -/
theorem Serialized.OwnForm.plain (h : OwnForm g serialize obj value)
    (hscopes : g.PrimitiveScopes) {n : Nat} (hparts : ∀ ref, Plain g n (serialize ref)) :
    Plain g (n + 1) value := by
  cases h with
  | primitive hprimitive => exact .primitive hprimitive
  | opaqueKey _ | str _ | unserializable _ => exact .text _
  | scopeIds hnode =>
    obtain ⟨hblockType, huserId⟩ := hscopes _ _ _ _ _ hnode
    refine .dict (by simp [keys]) ?_ ?_
    · simp [isPublic]
    · simp only [List.forall_mem_cons, List.not_mem_nil, false_imp_iff, implies_true, and_true]
      exact ⟨.primitive hblockType, .text _, .text _, .primitive huserId⟩
  | items _ =>
    refine .list fun item hitem => ?_
    obtain ⟨ref, -, rfl⟩ := List.mem_map.mp hitem
    exact hparts ref
  | @values values _ =>
    refine .dict ?_ ?_ ?_
    · simpa [keys, Function.comp_def] using values.nodup_publicEntries
    · intro e he
      obtain ⟨e, hmem, rfl⟩ := List.mem_map.mp he
      have hpublic := Attributes.isPublic_of_mem hmem
      exact hpublic
    · intro e he
      obtain ⟨e, -, rfl⟩ := List.mem_map.mp he
      exact hparts e.2

/-- A step into a container is a step into its form. -/
theorem Serialized.OwnForm.child (h : OwnForm g serialize obj value) {step : Step} {ref : ι}
    (hstep : (g.node obj).child step = some ref) : value.child step = some (serialize ref) := by
  cases step with
  | item i =>
    obtain ⟨items, hitems, href⟩ := Option.bind_eq_some_iff.mp hstep
    cases h with
    | items hnode =>
      obtain rfl := Option.some.inj (hnode.symm.trans hitems)
      simp [Serialized.child, href]
    | _ =>
      -- no other form is one of an object with items
      cases hobj : g.node obj <;>
        simp_all [PyObject.items?, PyObject.values?, PyObject.primitive?]
  | key key =>
    obtain ⟨values, hvalues, href⟩ := Option.bind_eq_some_iff.mp hstep
    cases h with
    | @values values' hnode =>
      obtain rfl : values' = values := Option.some.inj (hnode.symm.trans hvalues)
      have hlookup := lookup_map_members values'.publicEntries (fun _ ref => serialize ref) key
      rw [Serialized.child, hlookup, href]
      rfl
    | _ =>
      cases hobj : g.node obj <;>
        simp_all [PyObject.items?, PyObject.values?, PyObject.primitive?]

end Object

/-! ## Down the graph -/

section Graph

variable {g : ObjectGraph ι}

/-- The depth that is left bounds the nesting, and there is room for one more container. -/
theorem plain_objectSerializer (hscopes : g.PrimitiveScopes) (obj : ι) {n depth : Nat}
    (h : depth + n = maxSerializationDepth + 1) : Plain g n (objectSerializer g obj depth) := by
  induction n generalizing obj depth with
  | zero =>
    rw [objectSerializer_deep (by omega)]
    exact .text _
  | succ n ih =>
    have hform : OwnForm g (fun ref => objectSerializer g ref (depth + 1)) obj
        (objectSerializer g obj depth) := ownForm_objectSerializer (by omega)
    exact hform.plain hscopes fun ref => ih ref (by omega)

/-- At the end of a path there is what the object there is serialised to. -/
theorem at?_objectSerializer {root obj : ι} {path : List Step}
    (hpath : g.follow root path = some obj) {depth : Nat}
    (h : depth + path.length ≤ maxSerializationDepth + 1) :
    (objectSerializer g root depth).at? path =
      some (objectSerializer g obj (depth + path.length)) := by
  induction path generalizing root depth with
  | nil =>
    obtain rfl := Option.some.inj hpath
    rfl
  | cons step path ih =>
    rw [List.length_cons] at h
    obtain ⟨next, hstep, hpath⟩ := Option.bind_eq_some_iff.mp hpath
    have hform : OwnForm g (fun ref => objectSerializer g ref (depth + 1)) root
        (objectSerializer g root depth) := ownForm_objectSerializer (by omega)
    rw [Serialized.at?, hform.child hstep, Option.bind_some, ih hpath (by omega),
      List.length_cons, Nat.add_right_comm, Nat.add_assoc]

end Graph

/-- The result of `object_serializer` on any graph, with cycles or without: JSON, nested at most
one container deeper than the limit, under public keys, and every object that at most as many
steps lead to is found at the end of them, in the form of its own. -/
theorem objectSerializer_faithful (g : ObjectGraph ι) (hscopes : g.PrimitiveScopes) (root : ι) :
    Plain g (maxSerializationDepth + 1) (objectSerializer g root 0) ∧
      ∀ path obj, g.follow root path = some obj → path.length ≤ maxSerializationDepth →
        ∃ value, (objectSerializer g root 0).at? path = some value ∧
          OwnForm g (fun ref => objectSerializer g ref (path.length + 1)) obj value := by
  refine ⟨plain_objectSerializer hscopes root (Nat.zero_add _), ?_⟩
  intro path obj hpath h
  refine ⟨_, at?_objectSerializer hpath (by omega), ?_⟩
  rw [Nat.zero_add]
  exact ownForm_objectSerializer h

/-! ## A cycle -/

/-- A unit of a course that refers to its parent, which is itself, with a private cache that has
a scope. -/
def ownParent : ObjectGraph Nat where
  node
    | 0 => .object ⟨[(.str "course", 1), (.str "parent", 0), (.str "_cache", 2), (.other 3, 1)],
        by simp [keys]⟩
    | 1 => .opaqueKey
    | 2 => .scopeIds 3 1 1 4
    | 3 => .str "html"
    | _ => .none
  str _ := "course-v1:demo"
  typeName _ := "<class 'object'>"

theorem follow_parent (n : Nat) :
    ownParent.follow 0 (List.replicate n (.key "parent")) = some 0 := by
  have hstep : (ownParent.node 0).child (.key "parent") = some 0 := by
    simp [ownParent, PyObject.child, PyObject.values?, Attributes.publicEntries, Key.public?,
      isPublic, lookup_cons_ite]
  induction n with
  | zero => rfl
  | succ n ih => rw [List.replicate_succ, ObjectGraph.follow, hstep, Option.bind_some, ih]

/-- After fifteen steps along the cycle there is still the object, and not the sentinel. -/
theorem objectSerializer_faithful_cycle :
    Plain ownParent 16 (objectSerializer ownParent 0 0) ∧ ∃ value,
      (objectSerializer ownParent 0 0).at? (List.replicate 15 (.key "parent")) = some value ∧
        OwnForm ownParent (fun ref => objectSerializer ownParent ref 16) 0 value := by
  have hscopes : ownParent.PrimitiveScopes := by
    intro obj blockType defId usageId userId hnode
    simp only [ownParent] at hnode
    split at hnode <;> cases hnode
    exact ⟨rfl, rfl⟩
  obtain ⟨hplain, hpaths⟩ := objectSerializer_faithful ownParent hscopes 0
  exact ⟨hplain, hpaths _ 0 (follow_parent 15) (by decide)⟩

end WebhookRelay
