import WatchGate.CommandLine.Duration
import WatchGate.CommandLine.LogFilter
import WatchGate.Credentials
import WatchGate.Http

/-!
# WatchGate: the command line

Options are long and take one value, `--name value` or `--name=value`. A
separate value is read when the next option starts or the arguments end, so an
argument that is not known is reported before a bad value in front of it.
`Options.parse` gives the options, or a `UsageError`.
-/

namespace WatchGate

/-- What is wrong with arguments. -/
inductive UsageError
  /-- an argument that is no option, or a short one -/
  | unknownArgument
  /-- an option's value is not of its type -/
  | badValue
  /-- an option without a value, or a path that is empty -/
  | missingValue
  /-- an option given twice -/
  | repeated
  deriving DecidableEq, Repr

namespace UsageError

/-- The text of an error. -/
def message : UsageError → String
  | .unknownArgument => "unexpected argument found"
  | .badValue => "invalid value for one of the arguments"
  | .missingValue => "one of the values isn't valid for an argument"
  | .repeated => "an argument cannot be used with one or more of the other specified arguments"

end UsageError

/-- What the gateway is started with. -/
structure Options where
  logLevel : String
  logJson : Bool
  /-- where the state of the process is served -/
  adminAddr : Http.Endpoint
  kubeconfig : Option String
  context : Option String
  cluster : Option String
  user : Option String
  asUser : Option String
  asGroup : Option String
  /-- how long the cluster's API may take to begin an answer -/
  apiTimeout : Duration
  /-- where clients are served -/
  proxyAddr : Http.Endpoint
  /-- the base from which watches are streamed -/
  backendUrl : Http.Uri
  /-- a file that holds a bearer token for each dial -/
  backendTokenFile : Option String
  credentials : Credentials
  /-- in milliseconds -/
  probeTimeout : Nat
  /-- zero for any number -/
  maxConcurrentProbes : Nat
  /-- in milliseconds -/
  dialTimeout : Nat
  /-- how many frames a session's queue holds at least -/
  outboundBuffer : Nat
  maxMessageBytes : Nat
  forwardedProto : Bytes
  deriving Repr

namespace Options

/-- The options when no argument is given. -/
def standard : Options where
  logLevel := "watch_proxy=info,warn"
  logJson := false
  adminAddr := ⟨.v4 0 0 0 0, 8080, 0⟩
  kubeconfig := none
  context := none
  cluster := none
  user := none
  asUser := none
  asGroup := none
  apiTimeout := .ofMilliseconds 9000
  proxyAddr := ⟨.v4 0 0 0 0, 8080, 0⟩
  backendUrl := Http.Uri.absolute "http" "127.0.0.1:8001" (['/'], none)
  backendTokenFile := none
  credentials := .standard
  probeTimeout := 5000
  maxConcurrentProbes := 0
  dialTimeout := 10000
  outboundBuffer := 32
  maxMessageBytes := 16777216
  forwardedProto := Bytes.ofAscii "http"

instance : Inhabited Options := ⟨standard⟩

end Options

namespace CommandLine

/-- An option's name. -/
inductive Flag
  | logLevel | logFormat | adminAddr
  | kubeconfig | context | cluster | user | asUser | asGroup
  | apiTimeout | proxyAddr | backendUrl | backendTokenFile | userHeader | groupHeader
  | probeTimeout | maxConcurrentProbes | dialTimeout | outboundBuffer | maxMessageBytes
  | forwardedProto
  deriving DecidableEq, Repr

/-- The options with their names. -/
def flags : List (String × Flag) :=
  [("log-level", .logLevel), ("log-format", .logFormat), ("admin-addr", .adminAddr),
    ("kubeconfig", .kubeconfig), ("context", .context), ("cluster", .cluster), ("user", .user),
    ("as", .asUser), ("as-group", .asGroup),
    ("kube-api-response-headers-timeout", .apiTimeout), ("proxy-addr", .proxyAddr),
    ("backend-url", .backendUrl), ("backend-token-file", .backendTokenFile),
    ("user-header", .userHeader), ("group-header", .groupHeader),
    ("probe-timeout-ms", .probeTimeout), ("max-concurrent-probes", .maxConcurrentProbes),
    ("dial-timeout-ms", .dialTimeout), ("outbound-buffer", .outboundBuffer),
    ("max-message-bytes", .maxMessageBytes), ("forwarded-proto", .forwardedProto)]

/-- The option of a name. -/
def flag? (name : List Char) : Option Flag :=
  (flags.find? (fun f => f.1.toList == name)).map (·.2)

/-- A number of 64 bits. -/
def number (s : String) : Except UsageError Nat :=
  match Text.unsigned? Text.word64 s.toList with
  | some n => .ok n
  | none => .error .badValue

/-- A duration. -/
def duration (s : String) : Except UsageError Duration :=
  match Duration.parse? s.toList with
  | some d => .ok d
  | none => .error .badValue

/-- An address to listen on. -/
def endpoint (s : String) : Except UsageError Http.Endpoint :=
  match Http.Endpoint.parse? s.toList with
  | some e => .ok e
  | none => .error .badValue

/-- A path, which is not empty. -/
def filePath (s : String) : Except UsageError String :=
  if s.isEmpty then .error .missingValue else .ok s

/-- The name of a header. -/
def headerName (s : String) : Except UsageError String :=
  match Http.Header.name? (Utf8.ofString s) with
  | some n => .ok n
  | none => .error .badValue

/-- The value of a header. -/
def headerValue (s : String) : Except UsageError Bytes :=
  if Http.Header.isValue (Utf8.ofString s) then .ok (Utf8.ofString s) else .error .badValue

/-- A URL. -/
def url (s : String) : Except UsageError Http.Uri :=
  match Http.Uri.parse s with
  | .ok u => .ok u
  | .error _ => .error .badValue

/-- A choice between plain text and JSON. -/
def logFormat (s : String) : Except UsageError Bool :=
  if s = "json" then .ok true else if s = "plain" then .ok false else .error .badValue

/-- A filter of log lines. -/
def logLevel (s : String) : Except UsageError String :=
  if LogFilter.accepts s.toList then .ok s else .error .badValue

/-- Sets an option to a value. -/
def assign (o : Options) (f : Flag) (v : String) : Except UsageError Options :=
  match f with
  | .logLevel => (logLevel v).map (fun x => { o with logLevel := x })
  | .logFormat => (logFormat v).map (fun x => { o with logJson := x })
  | .adminAddr => (endpoint v).map (fun x => { o with adminAddr := x })
  | .kubeconfig => (filePath v).map (fun x => { o with kubeconfig := some x })
  | .context => .ok { o with context := some v }
  | .cluster => .ok { o with cluster := some v }
  | .user => .ok { o with user := some v }
  | .asUser => .ok { o with asUser := some v }
  | .asGroup => .ok { o with asGroup := some v }
  | .apiTimeout => (duration v).map (fun x => { o with apiTimeout := x })
  | .proxyAddr => (endpoint v).map (fun x => { o with proxyAddr := x })
  | .backendUrl => (url v).map (fun x => { o with backendUrl := x })
  | .backendTokenFile => (filePath v).map (fun x => { o with backendTokenFile := some x })
  | .userHeader =>
    (headerName v).map (fun x => { o with credentials := { o.credentials with userHeader := x } })
  | .groupHeader =>
    (headerName v).map (fun x => { o with credentials := { o.credentials with groupHeader := x } })
  | .probeTimeout => (number v).map (fun x => { o with probeTimeout := x })
  | .maxConcurrentProbes => (number v).map (fun x => { o with maxConcurrentProbes := x })
  | .dialTimeout => (number v).map (fun x => { o with dialTimeout := x })
  | .outboundBuffer => (number v).map (fun x => { o with outboundBuffer := x })
  | .maxMessageBytes => (number v).map (fun x => { o with maxMessageBytes := x })
  | .forwardedProto => (headerValue v).map (fun x => { o with forwardedProto := x })

/-- What has been read of the arguments. -/
structure Progress where
  options : Options
  /-- the options that have been set -/
  given : List Flag
  /-- an option whose separate value is awaited, or has not been looked at -/
  pending : Option (Flag × Option String)

namespace Progress

/-- Nothing read. -/
def start : Progress := ⟨.standard, [], none⟩

/-- Sets an option that has not been set. -/
def take (p : Progress) (f : Flag) (v : String) : Except UsageError Progress :=
  if p.given.contains f then .error .repeated
  else (assign p.options f v).map (fun o => ⟨o, f :: p.given, none⟩)

/-- Sets the pending option. -/
def settle (p : Progress) : Except UsageError Progress :=
  match p.pending with
  | none => .ok p
  | some (_, none) => .error .missingValue
  | some (f, some v) => p.take f v

end Progress

/-- What an argument looks like. -/
inductive Word
  /-- two dashes, after which nothing is an option -/
  | dashes
  /-- a long option, with the value behind an equals sign if there is one -/
  | long (name : List Char) (value : Option (List Char))
  /-- a short option -/
  | short
  | plain

/-- Cuts an option at its first equals sign. -/
def cutValue (cs : List Char) : List Char × Option (List Char) :=
  if cs.contains '=' then ((Text.cutOnce '=' cs).1, some (Text.cutOnce '=' cs).2) else (cs, none)

/-- What an argument looks like. A single dash is a plain word. -/
def Word.ofArgument (s : String) : Word :=
  match s.toList with
  | ['-', '-'] => .dashes
  | '-' :: '-' :: cs => .long (cutValue cs).1 (cutValue cs).2
  | ['-'] => .plain
  | '-' :: _ => .short
  | _ => .plain

/-- Reads arguments. -/
def read (p : Progress) : List String → Except UsageError Options
  | [] => p.settle.map (·.options)
  | arg :: rest =>
    match Word.ofArgument arg with
    | .dashes => if rest.isEmpty then p.settle.map (·.options) else .error .unknownArgument
    | .short => .error .unknownArgument
    | .long name value =>
      match flag? name with
      | none => .error .unknownArgument
      | some f =>
        match p.settle, value with
        | .error e, _ => .error e
        | .ok p, none => read { p with pending := some (f, none) } rest
        | .ok p, some v =>
          match p.take f (String.ofList v) with
          | .error e => .error e
          | .ok p => read p rest
    | .plain =>
      match p.pending with
      | some (f, none) => read { p with pending := some (f, some arg) } rest
      | _ => .error .unknownArgument

end CommandLine

/-- The options that arguments give. -/
def Options.parse (args : List String) : Except UsageError Options :=
  CommandLine.read .start args

end WatchGate
