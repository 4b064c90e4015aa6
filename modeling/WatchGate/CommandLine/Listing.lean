import WatchGate.CommandLine
import WatchGate.Text.Quoted

/-!
# WatchGate: the options as they are listed

`Options.listing` shows what the gateway is started with, an entry for each
option that concerns the serving of clients, under the option's name. Numbers
are shown as numbers. Texts are quoted, each in the way of its kind, and then
lose the quotation marks at both ends; addresses and URLs are not quoted, but
lose them as well. What is not given is absent.
-/

namespace WatchGate

/-- An option's value as it is listed. -/
inductive Shown
  | absent
  | number (n : Nat)
  | text (cs : List Char)
  deriving DecidableEq, Repr

namespace Shown

/-- Written text, without the quotation marks at its ends. -/
def written (cs : List Char) : Shown := .text (Text.unmarked cs)

/-- A text, quoted. -/
def quoted (s : String) : Shown := written (Text.quote s.toList)

end Shown

/-- The options by name. -/
def Options.listing (o : Options) : List (String × Shown) :=
  [("proxy-addr", .written o.proxyAddr.render.toList),
    ("backend-url", .written o.backendUrl.render.toList),
    ("backend-token-file", (o.backendTokenFile.map Shown.quoted).getD .absent),
    ("user-header", .quoted o.credentials.userHeader),
    ("group-header", .quoted o.credentials.groupHeader),
    ("probe-timeout-ms", .number o.probeTimeout),
    ("max-concurrent-probes", .number o.maxConcurrentProbes),
    ("dial-timeout-ms", .number o.dialTimeout),
    ("outbound-buffer", .number o.outboundBuffer),
    ("max-message-bytes", .number o.maxMessageBytes),
    ("forwarded-proto", .written (Http.Header.quote o.forwardedProto))]

/-- What is listed are options that there are. -/
theorem Options.listing_names_subset (o : Options) :
    o.listing.map (·.1) ⊆ CommandLine.flags.map (·.1) := by
  simp [listing, CommandLine.flags]

end WatchGate
