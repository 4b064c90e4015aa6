import WatchGate.Catalog
import WatchGate.Cluster.Reply
import WatchGate.Cluster.Version
import WatchGate.Http.Uri

/-!
# WatchGate: discovery of kinds

The API lists its groups, the versions of each group, and the resources of each
version. One version speaks for a group: the preferred one, or the one that
comes first. `Discovery.catalogOf` makes a catalog of the resources that may be both
listed and watched; the first of a kind wins. `Discovery.run` reads the documents
and lists the paths that it asked for on the way.
-/

namespace WatchGate.Cluster

/-- A resource that a version of a group serves. -/
structure Served where
  group : String
  version : String
  kind : String
  plural : String
  namespaced : Bool
  verbs : List String
  deriving DecidableEq, Repr

namespace Served

/-- Whether a resource may be both listed and watched. -/
def watchable (r : Served) : Bool :=
  r.verbs.contains "list" && r.verbs.contains "watch"

/-- The path below which a resource is served. -/
def base (r : Served) : String :=
  if r.group.isEmpty then "api/" ++ r.version else "apis/" ++ r.group ++ "/" ++ r.version

/-- The kind of a resource. -/
def toKind (r : Served) : Kind := Kind.make r.kind r.plural r.base r.namespaced

end Served

/-- A group, with what each of its versions serves. -/
structure Group where
  name : String
  versions : List (String × List Served)
  preferred : Option String
  deriving Repr

namespace Group

/-- The version that speaks for a group. -/
def speaker (g : Group) : Option String :=
  match g.preferred with
  | some v => some v
  | none => Version.first? (g.versions.map (·.1))

/-- What the version that speaks for a group serves; nothing if it is not listed. -/
def recommended (g : Group) : List Served :=
  match g.speaker with
  | none => []
  | some v => ((g.versions.find? (fun x => x.1 == v)).map (·.2)).getD []

end Group

namespace Discovery

/-- Adds the kind of a resource that may be watched, unless there is one of its name. -/
def add (c : Catalog) (r : Served) : Catalog :=
  if r.watchable && !c.contains r.kind then c.insert r.toKind else c

/-- The catalog of resources. -/
def catalogOf (rs : List Served) : Catalog :=
  rs.foldl add (Catalog.ofList [])

/-- The catalog of groups. -/
def catalogOfGroups (gs : List Group) : Catalog :=
  catalogOf (gs.flatMap Group.recommended)

/-! ## Reading the documents -/

/-- The shape of the name of a version, short and with its group. -/
def versionShape : Shape := .texts ["groupVersion", "version"]

/-- The shape of a list of addresses. -/
def addressesShape : Shape := .list (.texts ["clientCIDR", "serverAddress"])

/-- The shape of a group. -/
def groupShape : Shape :=
  .typed "v1" "APIGroup"
    [("name", .text), ("preferredVersion", versionShape),
      ("serverAddressByClientCIDRs", addressesShape), ("versions", .list versionShape)]

/-- The shape of a list of groups. -/
def groupsShape : Shape := .typed "v1" "APIGroupList" [("groups", .list groupShape)]

/-- The shape of the list of the core group's versions. -/
def coreShape : Shape :=
  .typed "v1" "APIVersions"
    [("serverAddressByClientCIDRs", addressesShape), ("versions", .list .text)]

/-- The shape of a list of resources. -/
def resourcesShape : Shape :=
  .typed "v1" "APIResourceList"
    [("groupVersion", .text),
      ("resources", .list (.record [("categories", .list .text), ("group", .text), ("kind", .text),
        ("name", .text), ("namespaced", .truth), ("shortNames", .list .text),
        ("singularName", .text), ("storageVersionHash", .text), ("verbs", .list .text),
        ("version", .text)]))]

/-- The group and the version that a text names, before and behind its first slash; one without a
slash names a version of the core group. -/
def groupVersion (s : String) : String × String :=
  let cs := s.toList
  if cs.contains '/' then
    (String.ofList (Text.cutOnce '/' cs).1, String.ofList (Text.cutOnce '/' cs).2)
  else ("", s)

/-- Whether an item of a list of resources is a resource and not a part of one. -/
def isResource (item : Json) : Bool := !(textOf item "name").toList.contains '/'

/-- The resource of an item. Whether it is namespaced, and what may be done with it, is said by
the first item of its name. -/
def servedOf (items : List Json) (gv : String × String) (item : Json) : Served :=
  let name := textOf item "name"
  let first := (items.find? (fun x => textOf x "name" == name)).getD item
  ⟨((item.field? "group").bind Json.text?).getD gv.1,
    ((item.field? "version").bind Json.text?).getD gv.2, textOf item "kind", name,
    truthOf first "namespaced", (itemsOf first "verbs").filterMap Json.text?⟩

/-- The resources of a document. -/
def servedOfDocument (j : Json) : List Served :=
  let items := itemsOf j "resources"
  (items.filter isResource).map (servedOf items (groupVersion (textOf j "groupVersion")))

/-- What was asked for, in order, and what came of it. -/
abbrev Dialog (α : Type) := ExceptT Failure (StateM (List String)) α

/-- Asks for a document. What stands behind the path chooses no other one. -/
def ask (fetch : String → Except Failure Reply) (s : Shape) (path : String) : Dialog Json := do
  match Http.Uri.parse path with
  | .error _ => throw .unwritable
  | .ok u =>
    modify (fun asked => asked ++ [u.target])
    match (fetch u.path).bind (Reply.read s) with
    | .ok j => pure j
    | .error e => throw e

/-- Asks what a version serves. -/
def askVersion (fetch : String → Except Failure Reply) (path version : String) :
    Dialog (String × List Served) := do
  let j ← ask fetch resourcesShape path
  pure (version, servedOfDocument j)

/-- Refuses a group without versions. -/
def nonEmpty (name : String) (versions : List Json) : Dialog PUnit :=
  if versions.isEmpty then throw (.discovery ("Empty Api Group: " ++ name)) else pure ⟨⟩

/-- Asks for the versions of a group. -/
def askGroup (fetch : String → Except Failure Reply) (j : Json) : Dialog Group := do
  let name := textOf j "name"
  let listed := itemsOf j "versions"
  nonEmpty name listed
  let versions ← listed.mapM (fun v =>
    askVersion fetch ("/apis/" ++ textOf v "groupVersion") (textOf v "version"))
  let preferred :=
    match j.field? "preferredVersion" with
    | none | some .null => none
    | some v => some (textOf v "version")
  pure ⟨name, versions, preferred⟩

/-- Asks for the versions of the core group, of which `v1` is preferred. -/
def askCore (fetch : String → Except Failure Reply) : Dialog Group := do
  let j ← ask fetch coreShape "/api"
  let listed := itemsOf j "versions"
  nonEmpty "" listed
  let versions ← (listed.filterMap Json.text?).mapM (fun v =>
    askVersion fetch ("/api/" ++ v) v)
  pure ⟨"", versions, some "v1"⟩

/-- One group a name; the last one listed counts. -/
def byName (gs : List Group) : List Group :=
  (gs.foldl (fun (m : NameMap Group) g => m.insert g.name g) NameMap.empty).values

/-- Asks for all groups: those with a name in the order listed, then the core group. -/
def askAll (fetch : String → Except Failure Reply) : Dialog Catalog := do
  let j ← ask fetch groupsShape "/apis"
  let groups ← (itemsOf j "groups").mapM (askGroup fetch)
  let core ← askCore fetch
  pure (catalogOfGroups (byName (groups ++ [core])))

/-- The paths asked for, and the catalog of what the cluster serves. -/
def run (fetch : String → Except Failure Reply) : List String × Except Failure Catalog :=
  let (r, asked) := (askAll fetch).run []
  (asked, r)

end Discovery

end WatchGate.Cluster
