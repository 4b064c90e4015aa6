import WatchGate.Cluster.Reply

/-!
# WatchGate: the cluster's namespaces

The namespaces are listed by name, in the order in which the API lists them;
items without a name are skipped. A list must say its items once, and all else
that it says must be such that it can be kept.
-/

namespace WatchGate.Cluster.Namespaces

/-- Where namespaces are listed. -/
def path : String := "/api/v1/namespaces?"

/-- The shape of a namespace. -/
def itemShape : Shape :=
  .typed "v1" "Namespace"
    [("metadata", .objectMeta), ("spec", .record [("finalizers", .list .text)]),
      ("status", .record
        [("conditions", .list (.record [("lastTransitionTime", .instant), ("message", .text),
          ("reason", .text), ("status", .text), ("type", .text)])),
        ("phase", .text)])]

/-- Whether what a list says of itself is well formed: it may be missing, but not null. -/
def describes (fields : List (String × Json)) : Bool :=
  match Json.valuesOf fields "metadata" with
  | [] => true
  | [v] => !v.isNull && Shape.listMeta.fitsWithin (Json.maxDepth - 1) v
  | _ => false

/-- The items that the fields of a list give. They must be given, once; null stands for none. -/
def items? (fields : List (String × Json)) : Option (List Json) :=
  match Json.valuesOf fields "items" with
  | [.null] => some []
  | [v] => if (Shape.list itemShape).fitsWithin (Json.maxDepth - 1) v then v.items? else none
  | _ => none

/-- Whether the fields that a list need not have can be kept. -/
def keepsOthers (fields : List (String × Json)) : Bool :=
  (fields.filter (fun f => f.1 != "items" && f.1 != "metadata")).all
    (fun f => f.2.held (Json.maxDepth - 1))

/-- The items of a list of namespaces. -/
def listed? : Json → Option (List Json)
  | .obj fields => if describes fields && keepsOthers fields then items? fields else none
  | _ => none

/-- The name of an item. -/
def name? (item : Json) : Option String :=
  ((item.field? "metadata").bind (·.field? "name")).bind Json.text?

/-- The names that a reply lists. -/
def answer (r : Reply) : Except Failure (List String) :=
  match r.document with
  | .error e => .error e
  | .ok j =>
    match listed? j with
    | some items => .ok (items.filterMap name?)
    | none => .error .unreadable

end WatchGate.Cluster.Namespaces
