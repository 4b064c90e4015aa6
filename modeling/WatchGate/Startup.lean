import WatchGate.Cluster.Api
import WatchGate.CommandLine
import WatchGate.Gateway

/-!
# WatchGate: starting up

The options may choose a context and a cluster of the configuration of clusters,
and an identity to ask as. `Startup.connect` checks that there are such, and that
the identity can be sent. Then the kinds are discovered, once, before the bearer
token is read and before anything is served. `Startup.gateway` is the gateway
that options give over a cluster, or the reason why none can be started.
-/

namespace WatchGate.Startup

/-- What a configuration of clusters knows, by name. -/
structure Kubeconfig where
  contexts : List String
  clusters : List String
  deriving DecidableEq, Repr

/-- Why no gateway could be started. -/
inductive Error
  /-- the configuration has no context of this name -/
  | noContext (name : String)
  /-- the configuration has no cluster of this name -/
  | noCluster (name : String)
  /-- the identity to ask as cannot be sent -/
  | badIdentity
  | discovery (cause : Cluster.Failure)
  | noToken (path : String)
  | badToken
  deriving DecidableEq, Repr

namespace Error

/-- The text of an error. -/
def message : Error → String
  | .noContext name => "failed to load current context: " ++ name
  | .noCluster name => "failed to load the cluster of context: " ++ name
  | .badIdentity => "HttpError: " ++ Http.Malformed.headerValue.message
  | .discovery _ => "failed to discover resource kinds"
  | .noToken path => "failed to read " ++ path
  | .badToken => "backend token is not a valid header value"

end Error

/-- A name that is asked for and is not known. -/
def missing? (asked : Option String) (known : List String) : Option String :=
  asked.filter (fun name => !known.contains name)

/-- Whether an identity to ask as can be sent, if there is one. -/
def isSendable (name : Option String) : Bool :=
  name.all (fun s => Http.Header.isValue (Utf8.ofString s))

/-- Checks what options choose of a configuration of clusters, and whom they ask as. -/
def connect (o : Options) (k : Kubeconfig) : Except Error Unit :=
  match missing? o.context k.contexts, missing? o.cluster k.clusters with
  | some name, _ => .error (.noContext name)
  | none, some name => .error (.noCluster name)
  | none, none => if isSendable o.asUser && isSendable o.asGroup then .ok ⟨⟩ else .error .badIdentity

/-- The limits of probes that options set. -/
def limits (o : Options) : Probe.Limits :=
  ⟨o.probeTimeout, if o.maxConcurrentProbes = 0 then none else some o.maxConcurrentProbes⟩

/-- The director that sends the token of a file's text, with blanks around it dropped. -/
def tokenDirector (text : List Char) : Except Error Multiwatch.Director :=
  let token := Utf8.encode (Text.trim text)
  if Http.Header.isValue token then .ok (Multiwatch.bearer token) else .error .badToken

/-- The director that options ask for. A file holds text, or cannot be read. -/
def director (o : Options) (files : String → Option Bytes) :
    Except Error (Option Multiwatch.Director) :=
  match o.backendTokenFile with
  | none => .ok none
  | some path =>
    match (files path).bind Utf8.decode? with
    | none => .error (.noToken path)
    | some text => (tokenDirector text).map some

/-- The text of an access error, for the log. -/
def described {α : Type} (r : Except Access.Error α) : Except String α :=
  match r with
  | .ok a => .ok a
  | .error e => .error e.message

/-- The gateway over access that has its answers (`Survey.answer?`), as it has where the
namespaces have names. -/
def gatewayOf (o : Options) (access : Access) (director : Option Multiwatch.Director) : Gateway :=
  { credentials := o.credentials
    rights := fun kind ns name caller => described (access.rights kind ns name caller).result
    service :=
      { watches := fun caller => described (access.watches caller).result
        backend := some (Multiwatch.Backend.ofBase o.backendUrl)
        director := director
        forwardedProto := o.forwardedProto } }

/-- The kinds that a cluster serves. -/
def catalog (api : Cluster.Api) : Except Error Catalog :=
  match (Cluster.Discovery.run api.get).2 with
  | .error cause => .error (.discovery cause)
  | .ok c => .ok c

/-- The kinds that a cluster serves, once options are found to choose one. -/
def discover (o : Options) (k : Kubeconfig) (api : Cluster.Api) : Except Error Catalog :=
  (connect o k).bind (fun _ => catalog api)

/-- The gateway that options give over a cluster. -/
def gateway (o : Options) (k : Kubeconfig) (api : Cluster.Api) (files : String → Option Bytes) :
    Except Error Gateway :=
  match discover o k api with
  | .error e => .error e
  | .ok c => (director o files).map (gatewayOf o (api.access c (limits o)))

end WatchGate.Startup
