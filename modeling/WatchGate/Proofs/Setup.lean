import WatchGate.Gateway
import WatchGate.Multiwatch.Rehearsal
import WatchGate.Proofs.Catalog

/-!
# WatchGate — setting up all of a watch, or none of it

Before anything is dialed, the URL of every path of a plan is asked for, and one
path without a URL ends the matter. Which URLs are asked for depends on the paths
alone: they are those up to the first that has none (`resolve_calls`). Whether
there is anything to dial depends on the same path: either each place has become
a target with a URL of its own (`resolve_of_isSome`), or nothing has
(`resolve_of_isNone`).

`Multiwatch.upTo` cuts a row behind the first of its elements that stops it. The
places of a plan are its kinds by name and, within a kind, the namespaces as they
stand in its entry; each takes one connection (`length_places`).

Main result: `Gateway.sets_up_whole`.
-/

namespace WatchGate

open Http

namespace Multiwatch

-- ---------------------------------------------------------------------------
-- Rows with a stop
-- ---------------------------------------------------------------------------

section Rows

variable {α : Type} {p : α → Bool} {x : α} {xs pre rest : List α}

/-- The elements of a row up to the first that stops it, and this one. -/
def upTo (p : α → Bool) (xs : List α) : List α := xs.take (xs.findIdx p + 1)

theorem upTo_eq_self (h : ∀ x ∈ xs, p x = false) : upTo p xs = xs := by
  unfold upTo
  rw [List.findIdx_eq_length_of_false h]
  exact List.take_of_length_le (Nat.le_succ _)

theorem upTo_append_cons (h : ∀ y ∈ pre, p y = false) (hx : p x = true) :
    upTo p (pre ++ x :: rest) = pre ++ [x] := by
  have hidx : (pre ++ x :: rest).findIdx p = pre.length := by
    rw [List.findIdx_append, List.findIdx_eq_length_of_false h]
    simp [List.findIdx_cons, hx]
  unfold upTo
  rw [hidx, List.take_append, List.take_of_length_le (Nat.le_succ _)]
  simp

theorem stops_or_passes (p : α → Bool) (xs : List α) :
    (∀ x ∈ xs, p x = false) ∨
      ∃ pre x rest, xs = pre ++ x :: rest ∧ (∀ y ∈ pre, p y = false) ∧ p x = true := by
  cases h : xs.find? p with
  | none => exact .inl (by simpa using List.find?_eq_none.mp h)
  | some x =>
    obtain ⟨hx, pre, rest, hsplit, hpre⟩ := List.find?_eq_some_iff_append.mp h
    exact .inr ⟨pre, x, rest, hsplit, by simpa using hpre, hx⟩

theorem mem_upTo_cons : x ∈ upTo p (x :: xs) := by
  unfold upTo
  rw [List.take_succ_cons]
  exact List.mem_cons_self

theorem mem_of_mem_upTo (h : x ∈ upTo p xs) : x ∈ xs := List.mem_of_mem_take h

/-- What stands behind a stop says nothing. -/
theorem upTo_append (h : ∃ x ∈ xs, p x = true) (rest : List α) :
    upTo p (xs ++ rest) = upTo p xs := by
  rcases stops_or_passes p xs with hpass | ⟨as, x, bs, rfl, has, hx⟩
  · obtain ⟨x, hx, hp⟩ := h
    rw [hpass x hx] at hp
    cases hp
  · rw [List.append_assoc, List.cons_append, upTo_append_cons has hx, upTo_append_cons has hx]

end Rows

-- ---------------------------------------------------------------------------
-- Places
-- ---------------------------------------------------------------------------

theorem map_path_places (plan : WatchPlan) :
    (places plan).map Place.path = plan.paths.map Prod.snd := by
  unfold places WatchPlan.paths
  simp only [List.map_flatMap, List.map_map]
  rfl

theorem length_places (plan : WatchPlan) : (places plan).length = plan.connections := by
  have h := congrArg List.length (map_path_places plan)
  rw [List.length_map, List.length_map, plan.length_paths] at h
  exact h

theorem connections_pos {plan : WatchPlan} (h : plan.isEmpty = false) : 0 < plan.connections := by
  unfold WatchPlan.isEmpty at h
  unfold WatchPlan.connections WatchPlan.toList NameMap.values
  cases he : plan.entries.entries with
  | nil => simp [he] at h
  | cons x xs =>
    have hone : 1 ≤ x.2.connections := Nat.le_max_right _ _
    simp only [List.map_cons, List.foldr_cons]
    omega

-- ---------------------------------------------------------------------------
-- URLs
-- ---------------------------------------------------------------------------

variable {b : Backend} {version : Nat} {ps : List Place}

/-- Asks for the URL of a path. -/
def askUrl (b : Backend) (version : Nat) (path : String) : Call :=
  .url path version (b path version)

/-- The path whose URL was asked for. -/
def Call.path? : Call → Option String
  | .url path _ _ => some path
  | .rights .. | .watches _ | .direct _ => none

theorem filterMap_path?_askUrl (paths : List String) :
    (paths.map (askUrl b version)).filterMap Call.path? = paths := by
  rw [List.filterMap_map]
  exact List.filterMap_some

/-- URLs are asked for up to the first path that has none. -/
theorem resolve_calls (b : Backend) (version : Nat) (ps : List Place) :
    (resolve b version ps).1 =
      (upTo (fun path => (b path version).isNone) (ps.map Place.path)).map (askUrl b version) := by
  unfold upTo
  induction ps with
  | nil => rfl
  | cons p ps ih =>
    simp only [resolve, List.map_cons, List.findIdx_cons, List.take_succ_cons]
    cases h : b p.path version with
    | none => simp [askUrl, h]
    | some u => simp [askUrl, h, ih]

/-- Where each place has a URL, all become targets, each with its own. -/
theorem resolve_of_isSome (h : ∀ p ∈ ps, (b p.path version).isSome) :
    ∃ targets, (resolve b version ps).2 = .ok targets ∧
      targets.map (fun t => (t.kind, t.ns, some t.url)) =
        ps.map fun p => (p.kind, p.ns, b p.path version) := by
  induction ps with
  | nil => exact ⟨[], rfl, rfl⟩
  | cons p ps ih =>
    obtain ⟨u, hu⟩ := Option.isSome_iff_exists.mp (h p List.mem_cons_self)
    obtain ⟨targets, hrest, hmap⟩ := ih fun x hx => h x (List.mem_cons_of_mem _ hx)
    refine ⟨⟨p.kind, p.ns, u⟩ :: targets, ?_, ?_⟩
    · simp only [resolve, hu, hrest]
      rfl
    · simp only [List.map_cons, hmap, hu]

/-- With the first place that has no URL, there is nothing to dial. -/
theorem resolve_of_isNone {pre rest : List Place} {p : Place}
    (hpre : ∀ x ∈ pre, (b x.path version).isSome) (hp : b p.path version = none) :
    (resolve b version (pre ++ p :: rest)).2 = .error (.noUrl p.path) := by
  induction pre with
  | nil => simp [resolve, hp]
  | cons x pre ih =>
    obtain ⟨u, hu⟩ := Option.isSome_iff_exists.mp (hpre x List.mem_cons_self)
    have hrest := ih fun y hy => hpre y (List.mem_cons_of_mem _ hy)
    simp only [List.cons_append, resolve, hu, hrest]
    rfl

theorem length_of_resolve {targets : List Target} (h : (resolve b version ps).2 = .ok targets) :
    targets.length = ps.length := by
  induction ps generalizing targets with
  | nil =>
    cases h
    rfl
  | cons p ps ih =>
    unfold resolve at h
    split at h
    · cases h
    · cases hrest : (resolve b version ps).2 with
      | error e => simp [hrest, Except.map] at h
      | ok rest =>
        simp only [hrest, Except.map, Except.ok.injEq] at h
        subst h
        simp [ih hrest]

-- ---------------------------------------------------------------------------
-- Launches
-- ---------------------------------------------------------------------------

/-- A launch is made of the key, the plan and the URLs that the checks have come to. -/
theorem prepare_eq_ok {s : Service} {r : Request} {caller : Identity} {calls : List Call}
    {l : Launch} (h : s.prepare r caller = (calls, .ok l)) :
    ∃ key b plan targets, clientKey? r.headers = some key ∧ s.backend = some b ∧
      s.watches caller = .ok plan ∧ plan.isEmpty = false ∧
      (resolve b (resourceVersion r.uri) (places plan)).2 = .ok targets ∧
      l = ⟨key, targets, (dialHeaders s r).2, plan.grants⟩ := by
  unfold Service.prepare at h
  split at h
  · cases h
  · next key hkey =>
    split at h
    · cases h
    · next b hb =>
      split at h
      · cases h
      · next plan hplan =>
        split at h
        · cases h
        · next hsome =>
          split at h
          · cases h
          · next targets hresolve =>
            cases h
            exact ⟨key, b, plan, targets, hkey, hb, hplan, by simpa using hsome,
              by rw [hresolve], rfl⟩

/-- A launch dials each place of a plan once: at the URL of its own path, and with
the same headers as the others. -/
structure Launch.Covers (l : Launch) (plan : WatchPlan) (url : String → Option Uri) : Prop where
  targets : l.targets.map (fun t => (t.kind, t.ns, some t.url)) =
    plan.toList.flatMap fun w => w.paths.map fun x => (w.kind.name, x.1, url x.2)
  count : l.targets.length = plan.connections
  /-- as many dials as the plan takes connections, none of which has ended -/
  pending : ∀ outboundBuffer, (l.session outboundBuffer).feeds =
    List.replicate plan.connections .dialed
  /-- one at least, and nothing has counted -/
  waits : ∀ outboundBuffer, (l.session outboundBuffer).phase = .opening ∧
    (l.session outboundBuffer).tally = .zero
  /-- each handshake goes to the URL of a target of its own -/
  dialed : ∀ c, ((Rehearsal.handshakes c l).map Prod.fst).Sublist
    (l.targets.map fun t => t.url.target)
  /-- and all of them say the same -/
  alike : ∀ c, ∀ x ∈ Rehearsal.handshakes c l, ∀ y ∈ Rehearsal.handshakes c l, x.2 = y.2

theorem handshakes_sublist (c : Stagecraft) (l : Launch) :
    ((Rehearsal.handshakes c l).map Prod.fst).Sublist (l.targets.map fun t => t.url.target) := by
  unfold Rehearsal.handshakes
  split
  · exact List.nil_sublist _
  · rw [List.map_map]
    exact List.filter_sublist.map _

theorem handshakes_alike (c : Stagecraft) (l : Launch) :
    ∀ x ∈ Rehearsal.handshakes c l, ∀ y ∈ Rehearsal.handshakes c l, x.2 = y.2 := by
  unfold Rehearsal.handshakes
  split
  · exact fun x hx => absurd hx List.not_mem_nil
  · intro x hx y hy
    obtain ⟨_, -, rfl⟩ := List.mem_map.mp hx
    obtain ⟨_, -, rfl⟩ := List.mem_map.mp hy
    rfl

theorem covers_of_targets {l : Launch} {plan : WatchPlan} {url : String → Option Uri}
    (hplan : plan.isEmpty = false)
    (h : l.targets.map (fun t => (t.kind, t.ns, some t.url)) =
      (places plan).map fun p => (p.kind, p.ns, url p.path)) : l.Covers plan url := by
  have hlength : l.targets.length = plan.connections := by
    have hlength := congrArg List.length h
    rwa [List.length_map, List.length_map, length_places] at hlength
  refine ⟨?_, hlength, fun _ => ?_, fun _ => ⟨?_, rfl⟩, fun c => handshakes_sublist c l,
    fun c => handshakes_alike c l⟩
  · rw [h, places, List.map_flatMap]
    simp only [List.map_map]
    rfl
  · unfold Launch.session Session.initial
    rw [hlength]
  · have hne : l.targets.length ≠ 0 := by
      have hpos := connections_pos hplan
      omega
    exact if_neg hne

end Multiwatch

open Multiwatch

namespace Gateway

-- ---------------------------------------------------------------------------
-- Setup
-- ---------------------------------------------------------------------------

variable {g : Gateway} {r : Request} {caller : Identity} {key : Bytes} {b : Backend}
  {plan : WatchPlan}

/-- With a key, a backend and a plan, the URLs are all that is left to decide. -/
theorem multiwatch_of_plan (hkey : clientKey? r.headers = some key)
    (hb : g.service.backend = some b) (hw : g.service.watches caller = .ok plan)
    (hplan : plan.isEmpty = false) :
    g.multiwatch r caller =
      match resolve b (resourceVersion r.uri) (places plan) with
      | (calls, .error e) => ⟨.watches caller :: calls, .reply e.response⟩
      | (calls, .ok targets) =>
        ⟨.watches caller :: calls ++ (dialHeaders g.service r).1,
          .launch ⟨key, targets, (dialHeaders g.service r).2, plan.grants⟩⟩ := by
  unfold multiwatch Service.prepare
  simp only [hkey, hb, hw, hplan, Bool.false_eq_true, if_false]
  rcases resolve b (resourceVersion r.uri) (places plan) with ⟨calls, e | targets⟩ <;> rfl

theorem multiwatch_of_urls (hkey : clientKey? r.headers = some key)
    (hb : g.service.backend = some b) (hw : g.service.watches caller = .ok plan)
    (hplan : plan.isEmpty = false)
    (hurls : ∀ path ∈ plan.paths.map Prod.snd, (b path (resourceVersion r.uri)).isSome) :
    ∃ targets,
      g.multiwatch r caller =
        ⟨.watches caller ::
            (plan.paths.map Prod.snd).map (askUrl b (resourceVersion r.uri)) ++
            (dialHeaders g.service r).1,
          .launch ⟨key, targets, (dialHeaders g.service r).2, plan.grants⟩⟩ ∧
      targets.map (fun t => (t.kind, t.ns, some t.url)) =
        (places plan).map fun p => (p.kind, p.ns, b p.path (resourceVersion r.uri)) := by
  rw [← map_path_places] at hurls ⊢
  obtain ⟨targets, hok, hmap⟩ := resolve_of_isSome fun p hp => hurls _ (List.mem_map_of_mem hp)
  have hcalls := resolve_calls b (resourceVersion r.uri) (places plan)
  rw [upTo_eq_self (by simpa [Option.isSome_iff_ne_none] using hurls)] at hcalls
  refine ⟨targets, ?_, hmap⟩
  rw [multiwatch_of_plan hkey hb hw hplan, ← hcalls]
  generalize resolve b (resourceVersion r.uri) (places plan) = x at hok ⊢
  obtain ⟨calls, result⟩ := x
  subst hok
  rfl

theorem multiwatch_of_missing {pre rest : List String} {path : String}
    (hkey : clientKey? r.headers = some key) (hb : g.service.backend = some b)
    (hw : g.service.watches caller = .ok plan) (hplan : plan.isEmpty = false)
    (hsplit : plan.paths.map Prod.snd = pre ++ path :: rest)
    (hpre : ∀ p ∈ pre, (b p (resourceVersion r.uri)).isSome)
    (hpath : b path (resourceVersion r.uri) = none) :
    g.multiwatch r caller =
      ⟨.watches caller :: (pre ++ [path]).map (askUrl b (resourceVersion r.uri)),
        .reply (SetupError.noUrl path).response⟩ := by
  have hcalls := resolve_calls b (resourceVersion r.uri) (places plan)
  rw [map_path_places, hsplit,
    upTo_append_cons (by simpa [Option.isSome_iff_ne_none] using hpre) (by simp [hpath])] at hcalls
  have herror : (resolve b (resourceVersion r.uri) (places plan)).2 = .error (.noUrl path) := by
    rw [← map_path_places] at hsplit
    obtain ⟨as, bs, hplaces, rfl, hbs⟩ := List.map_eq_append_iff.mp hsplit
    obtain ⟨p, cs, rfl, rfl, -⟩ := List.map_eq_cons_iff.mp hbs
    rw [hplaces]
    exact resolve_of_isNone (fun x hx => hpre _ (List.mem_map_of_mem hx)) hpath
  rw [multiwatch_of_plan hkey hb hw hplan, ← hcalls]
  generalize resolve b (resourceVersion r.uri) (places plan) = x at herror ⊢
  obtain ⟨calls, result⟩ := x
  subst herror
  rfl

/-- The paths whose URLs were asked for. -/
def Handling.asked (h : Handling) : List String := h.calls.filterMap Call.path?

theorem filterMap_path?_dialHeaders (s : Service) (r : Request) :
    (dialHeaders s r).1.filterMap Call.path? = [] := by
  unfold dialHeaders
  cases s.director <;> rfl

/--
**A watch is set up as a whole or not at all.** Of a request that asks for an
upgrade, a caller with something to watch and any backend, be it without URLs for
some paths: kinds are taken in order of their names and namespaces in order of
arrival. If every path has a URL, all of them were asked for, and there is a dial
for each connection of the plan. Otherwise the last one that was asked for is the
first without a URL, and nothing is dialed or counted.
-/
theorem sets_up_whole (g : Gateway) (r : Request) (caller : Identity) (key : Bytes) (b : Backend)
    (plan : WatchPlan) (hkey : clientKey? r.headers = some key)
    (hb : g.service.backend = some b) (hw : g.service.watches caller = .ok plan)
    (hplan : plan.isEmpty = false) :
    let url := fun path => b path (resourceVersion r.uri)
    let paths := plan.paths.map Prod.snd
    let h := g.multiwatch r caller
    (plan.toList = plan.entries.names.filterMap plan.entries.get? ∧
      plan.entries.names.Pairwise (· < ·)) ∧
    ((∀ path ∈ paths, (url path).isSome) →
      h.asked = paths ∧ ∃ l, h.next = .launch l ∧ l.Covers plan url) ∧
    ((¬ ∀ path ∈ paths, (url path).isSome) →
      ∃ pre path rest, paths = pre ++ path :: rest ∧ (∀ p ∈ pre, (url p).isSome) ∧
        url path = none ∧ h.asked = pre ++ [path] ∧
        h.next = .reply (Response.text 500 "Internal server error (code: 2)") ∧
        h.refused.2 = .zero) := by
  intro url paths h
  refine ⟨⟨plan.entries.values_eq_filterMap, plan.entries.pairwise_names⟩, fun hurls => ?_,
    fun hmissing => ?_⟩
  · obtain ⟨targets, heq, htargets⟩ := multiwatch_of_urls hkey hb hw hplan hurls
    have hasked : h.asked = paths := by
      unfold h Handling.asked
      rw [heq]
      simp only [List.cons_append, List.filterMap_cons, List.filterMap_append, Call.path?]
      rw [filterMap_path?_askUrl, filterMap_path?_dialHeaders, List.append_nil]
    exact ⟨hasked, _, by unfold h; rw [heq], covers_of_targets hplan htargets⟩
  · rcases stops_or_passes (fun path => (url path).isNone) paths with hpass | hstop
    · refine absurd (fun path hp => ?_) hmissing
      simpa [Option.isSome_iff_ne_none] using hpass path hp
    · obtain ⟨pre, path, rest, hsplit, hpre, hpath⟩ := hstop
      have hpre : ∀ p ∈ pre, (url p).isSome := by
        simpa [Option.isSome_iff_ne_none] using hpre
      have hpath : url path = none := by simpa using hpath
      have heq := multiwatch_of_missing hkey hb hw hplan hsplit hpre hpath
      have hasked : h.asked = pre ++ [path] := by
        unfold h Handling.asked
        rw [heq]
        exact filterMap_path?_askUrl _
      refine ⟨pre, path, rest, hsplit, hpre, hpath, hasked, ?_, ?_⟩
      · unfold h
        rw [heq]
        rfl
      · unfold h Handling.refused
        rw [heq]

-- ---------------------------------------------------------------------------
-- A plan of three connections, one of them without a URL
-- ---------------------------------------------------------------------------

/-- Pods in two namespaces, and the nodes of the cluster. -/
def podsAndNodes : WatchPlan :=
  .ofGrants [⟨⟨"Pod", "pods", "api/v1", true⟩, .watch, "", "ns-0"⟩,
    ⟨⟨"Node", "nodes", "api/v1", false⟩, .watch, "", ""⟩,
    ⟨⟨"Pod", "pods", "api/v1", true⟩, .watch, "", "ns-1"⟩]

/-- Their URLs, less those of some paths. -/
def podsAndNodesBackend (missing : List String) : Backend :=
  (Backend.ofBase ⟨some "http", some "127.0.0.1:8001", "/", none⟩).without missing

/-- A gateway that watches them on behalf of anyone, and gives anyone no rights. -/
def podsAndNodesGateway (missing : List String) : Gateway where
  credentials := .standard
  rights _ _ _ _ := .ok .nothing
  service := ⟨fun _ => .ok podsAndNodes, some (podsAndNodesBackend missing), none,
    Bytes.ofAscii "http"⟩

/-- Asks for a watch, on behalf of a caller with two groups. -/
def watchRequest : Request where
  method := "GET"
  uri := ⟨none, none, "/multiwatch", some "resourceVersion=7"⟩
  headers := ⟨[⟨"x-remote-user", Bytes.ofAscii "alice"⟩,
    ⟨"x-remote-group", Bytes.ofAscii "dev, ops"⟩,
    ⟨"connection", Bytes.ofAscii "keep-alive, Upgrade"⟩,
    ⟨"upgrade", Bytes.ofAscii "websocket"⟩,
    ⟨"sec-websocket-version", Bytes.ofAscii "13"⟩,
    ⟨"sec-websocket-key", Bytes.ofAscii "dGhlIHNhbXBsZSBub25jZQ=="⟩]⟩
  client := .v4 127 0 0 1

/-- The nodes come first, and no URL is asked for behind the path that has none. -/
theorem podsAndNodes_setup :
    clientKey? watchRequest.headers = some (Bytes.ofAscii "dGhlIHNhbXBsZSBub25jZQ==") ∧
    podsAndNodes.isEmpty = false ∧
    (∃ l, ((podsAndNodesGateway []).multiwatch watchRequest ⟨"alice", []⟩).next = .launch l ∧
      (l.session 1).feeds = List.replicate 3 .dialed) ∧
    ((podsAndNodesGateway ["/api/v1/namespaces/ns-0/pods"]).multiwatch watchRequest
        ⟨"alice", []⟩).asked = ["/api/v1/nodes", "/api/v1/namespaces/ns-0/pods"] ∧
    ((podsAndNodesGateway ["/api/v1/namespaces/ns-0/pods"]).multiwatch watchRequest
        ⟨"alice", []⟩).next = .reply (Response.text 500 "Internal server error (code: 2)") := by
  have hkey : clientKey? watchRequest.headers =
      some (Bytes.ofAscii "dGhlIHNhbXBsZSBub25jZQ==") := by decide +kernel
  have hplan : podsAndNodes.isEmpty = false := by decide +kernel
  obtain ⟨-, hwhole, -⟩ := sets_up_whole (podsAndNodesGateway []) watchRequest ⟨"alice", []⟩ _ _ _
    hkey rfl rfl hplan
  obtain ⟨-, l, hl, hcovers⟩ := hwhole (by decide +kernel)
  have hthree : podsAndNodes.connections = 3 := by decide +kernel
  obtain ⟨-, -, hpart⟩ := sets_up_whole (podsAndNodesGateway ["/api/v1/namespaces/ns-0/pods"])
    watchRequest ⟨"alice", []⟩ _ _ _ hkey rfl rfl hplan
  obtain ⟨-, -, -, -, -, -, -, hnext, -⟩ := hpart (by decide +kernel)
  exact ⟨hkey, hplan, ⟨l, hl, hthree ▸ hcovers.pending 1⟩, by decide +kernel, hnext⟩

end Gateway

end WatchGate
