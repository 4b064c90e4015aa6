import WatchGate.Cluster.Instant
import WatchGate.Json

/-!
# WatchGate: shapes of documents

The cluster's API answers in JSON documents of known shapes. A `Shape` says what
a value must look like to be read; `Shape.fits` checks it. A member of a record
may be missing, and null unless it is a fixed text; of a member given twice both
values must fit. Members that the record does not know are ignored, whatever they
hold. Items of lists and values of maps must be there.

Reading opens one list or object inside another, and no more than
`Json.maxDepth` of them at once.
-/

namespace WatchGate.Cluster

/-- What a value must look like. -/
inductive Shape
  /-- any value that can be kept as a whole -/
  | anything
  | text
  /-- this text and no other -/
  | exactly (s : String)
  | truth
  /-- a whole number of 64 bits with a sign -/
  | whole
  /-- a date and a time of day with an offset -/
  | instant
  | list (item : Shape)
  | map (value : Shape)
  | record (members : List (String × Shape))

namespace Shape

/-- Whether null stands for a missing member of a shape. -/
def nullable : Shape → Bool
  | .exactly _ => false
  | _ => true

mutual

/-- Whether a value has a shape, with at most `depth` lists and objects open at once. -/
def fitsWithin : Nat → Shape → Json → Bool
  | depth, .anything, v => v.held depth
  | _, .text, .str _ => true
  | _, .exactly s, .str t => s == t
  | _, .truth, .bool _ => true
  | _, .whole, .number n => -0x8000000000000000 ≤ n && n < 0x8000000000000000
  | _, .instant, .str s => (Instant.parse? s.toList).isSome
  | depth + 1, .list item, .arr xs => xs.all (fitsWithin depth item)
  | depth + 1, .map value, .obj xs => xs.all (fun x => fitsWithin depth value x.2)
  | depth + 1, .record members, .obj xs => fitsMembers depth members xs
  | _, _, _ => false

/-- Whether the members that a record knows have their shapes. -/
def fitsMembers : Nat → List (String × Shape) → List (String × Json) → Bool
  | _, [], _ => true
  | depth, (name, s) :: rest, xs =>
    (Json.valuesOf xs name).all (fun v => (v.isNull && nullable s) || fitsWithin depth s v)
      && fitsMembers depth rest xs

end

/-- Whether a value has a shape. -/
def fits (s : Shape) (j : Json) : Bool := fitsWithin Json.maxDepth s j

/-- A record of texts. -/
def texts (names : List String) : Shape :=
  .record (names.map (fun n => (n, .text)))

/-- The members by which a document says what it is. -/
def typed (version kind : String) (members : List (String × Shape)) : Shape :=
  .record (("apiVersion", .exactly version) :: ("kind", .exactly kind) :: members)

/-- What documents say about any object of the cluster. -/
def objectMeta : Shape :=
  .record [("annotations", .map .text), ("creationTimestamp", .instant),
    ("deletionGracePeriodSeconds", .whole), ("deletionTimestamp", .instant),
    ("finalizers", .list .text), ("generateName", .text), ("generation", .whole),
    ("labels", .map .text),
    ("managedFields", .list (.record [("apiVersion", .text), ("fieldsType", .text),
      ("fieldsV1", .anything), ("manager", .text), ("operation", .text), ("subresource", .text),
      ("time", .instant)])),
    ("name", .text), ("namespace", .text),
    ("ownerReferences", .list (.record [("apiVersion", .text), ("blockOwnerDeletion", .truth),
      ("controller", .truth), ("kind", .text), ("name", .text), ("uid", .text)])),
    ("resourceVersion", .text), ("selfLink", .text), ("uid", .text)]

/-- What documents say about a list of objects. -/
def listMeta : Shape :=
  .record [("continue", .text), ("remainingItemCount", .whole), ("resourceVersion", .text),
    ("selfLink", .text)]

end Shape

end WatchGate.Cluster
