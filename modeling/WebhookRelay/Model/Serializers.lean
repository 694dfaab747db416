import WebhookRelay.Model.Json

/-!
# Serialisation of event objects

`serializers.py` on graphs of objects. An object is known by a reference, and what the code asks
about it is in its node; references may lead back to where they come from, and there may be
infinitely many of them. What is returned as it is stays a reference.
-/

namespace WebhookRelay

open Dictionary

/-- A key of a dictionary: a string, or any other object. -/
inductive Key (ι : Type) where
  | str (key : String)
  | other (ref : ι)

/-- The items of a dictionary, or the attributes of an object, in order. -/
structure Attributes (ι : Type) where
  entries : List (Key ι × ι)
  nodup_keys : (keys entries).Nodup

/-- An object by the class that the dispatch of `object_serializer` puts it in. -/
inductive PyObject (ι : Type) where
  | none
  | bool (value : Bool)
  | int (value : Int)
  | float (bits : UInt64)
  | str (value : String)
  | scopeIds (blockType defId usageId userId : ι)
  | opaqueKey
  | list (items : List ι)
  | tuple (items : List ι)
  | set (items : List ι)
  | dict (values : Attributes ι)
  /-- any other object with a `__dict__` -/
  | object (attributes : Attributes ι)
  /-- an object without a `__dict__`, that may have a `__str__` -/
  | bare (hasStr : Bool)

/-- The objects behind the references, and what Python prints for them. -/
structure ObjectGraph (ι : Type) where
  node : ι → PyObject ι
  /-- `str(obj)` -/
  str : ι → String
  /-- `f"{type(obj)}"` -/
  typeName : ι → String

/-- What a serializer returns: an object as it is, or a text, list or dictionary of its own. -/
inductive Serialized (ι : Type) where
  | object (ref : ι)
  | text (s : String)
  | list (items : List (Serialized ι))
  | dict (members : List (String × Serialized ι))

def maxSerializationDepth : Nat := 15

section Serializers

variable {ι : Type} (g : ObjectGraph ι)

/-- `scope_ids_serializer`, given the attributes of its argument. -/
def scopeIdsSerializer (blockType defId usageId userId : ι) : Serialized ι :=
  .dict [("block_type", .object blockType), ("def_id", .text (g.str defId)),
    ("usage_id", .text (g.str usageId)), ("user_id", .object userId)]

/-- `key.startswith("_")` does not hold. -/
def isPublic (key : String) : Bool := !key.startsWith "_"

/-- One round of the loop of `object_serializer` over `dict_values`, given how a value is
serialised. -/
def keepPublic (serialize : ι → Serialized ι) (returnValue : List (String × Serialized ι))
    (entry : Key ι × ι) : List (String × Serialized ι) :=
  match entry.1 with
  | .str key => if isPublic key then set returnValue key (serialize entry.2) else returnValue
  | .other _ => returnValue

/-- `object_serializer`; the depth of a call from outside is 0. -/
def objectSerializer (obj : ι) (depth : Nat) : Serialized ι :=
  if depth > maxSerializationDepth then .text "! Depth limit reached !"
  else match g.node obj with
    | .none | .bool _ | .int _ | .float _ | .str _ => .object obj
    | .scopeIds blockType defId usageId userId =>
      scopeIdsSerializer g blockType defId usageId userId
    | .opaqueKey => .text (g.str obj)
    | .list items | .tuple items | .set items =>
      .list (items.map fun item => objectSerializer item (depth + 1))
    | .dict values | .object values =>
      .dict (values.entries.foldl (keepPublic fun value => objectSerializer value (depth + 1)) [])
    | .bare true => .text (g.str obj)
    | .bare false => .text ("Unserializable " ++ g.typeName obj)
termination_by maxSerializationDepth + 1 - depth

end Serializers

end WebhookRelay
