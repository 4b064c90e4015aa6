import WatchGate.Proofs.Backend
import WatchGate.Proofs.Gateway

/-!
# WatchGate — the resource version, from the request to the URLs

A request asks from a resource version, and the backend is given a version with each
path. In between stand the checks of `Proofs.Gateway`, of which only one asks for
URLs: what holds of that check's calls holds of all of a request's.

Main result: `Gateway.version_kept`.
-/

namespace WatchGate.Gateway

open Http Multiwatch

variable {g : Gateway} {r : Request} {ok : Nat → Bool} {c : Check} {path : String} {v : Nat}
  {answer : Option Uri}

/-- Whichever check asks for a URL asks for the request's version. -/
theorem url_of_asks (h : Call.url path v answer ∈ g.asks r c) :
    v = resourceVersion r.uri ∧ ∃ b, g.service.backend = some b ∧ answer = b path v := by
  cases c with
  | urls =>
    cases hb : g.service.backend with
    | none => simp [asks, hb] at h
    | some b =>
      cases hplan : g.planOf r with
      | none => simp [asks, hb, hplan] at h
      | some plan =>
        simp only [asks, hb, hplan] at h
        obtain ⟨path', -, hcall⟩ := List.mem_map.mp h
        cases hcall
        exact ⟨rfl, b, rfl, rfl⟩
  | dials =>
    cases hd : g.service.director <;> simp [asks, dialHeaders, hd] at h
  | rights => simp [asks] at h
  | watches => simp [asks] at h
  | _ => cases h

/-- Where URLs are asked for at all, there is one to ask for. -/
theorem exists_url_of_reached (h : .urls ∈ g.reached r ok) :
    ∃ path answer, Call.url path (resourceVersion r.uri) answer ∈ g.asks r .urls := by
  have hpath : r.uri.path ≠ "/permissions" := by
    intro hpath
    have hmem := mem_of_mem_upTo h
    rw [order_permissions hpath] at hmem
    exact absurd hmem (by decide)
  have horder : Check.order r.uri.path =
      [.route, .caller, .upgrade, .backend, .watches] ++ [.urls, .dials] := if_neg hpath
  -- the checks in front of it are passed, or it would not be reached
  have hpass : ∀ c ∈ [Check.route, .caller, .upgrade, .backend, .watches],
      g.passes r ok c = true := by
    intro c hc
    by_contra hfail
    have hstop : ∃ x ∈ [Check.route, .caller, .upgrade, .backend, .watches],
        (!g.passes r ok x) = true := ⟨c, hc, by simpa using hfail⟩
    unfold reached at h
    rw [horder, upTo_append hstop] at h
    exact absurd (mem_of_mem_upTo h) (by decide)
  obtain ⟨b, hb⟩ := Option.isSome_iff_exists.mp (hpass .backend (by decide))
  obtain ⟨plan, hplan, hsome⟩ := (Option.any_eq_true ..).mp (hpass .watches (by decide))
  have hlength : 0 < (plan.paths.map Prod.snd).length := by
    rw [List.length_map, plan.length_paths]
    exact connections_pos (by simpa using hsome)
  obtain ⟨path, rest, hpaths⟩ := List.exists_cons_of_length_pos hlength
  refine ⟨path, b path (resourceVersion r.uri), ?_⟩
  simp only [asks, hb, hplan, hpaths]
  exact List.mem_map_of_mem mem_upTo_cons

/--
**The resource version is kept.** Every request asks from one version: the number
that the first `resourceVersion` of its query writes, if that is one below 2 ^ 64,
and zero otherwise. Each URL that is asked for on behalf of the request is asked for
with this version, and there is such a URL if the request gets that far.

What a base URL makes of a path and a version is its own host, dialed with the
scheme that goes with it, the path, and a query that holds the version and can be
read back. A base without a host makes nothing of any path.
-/
theorem version_kept (g : Gateway) (r : Request) :
    (∃ n, n < 2 ^ 64 ∧ (∀ m, AsksFrom r.uri m ↔ m = n) ∧
      (∀ path v answer, Call.url path v answer ∈ (g.handle r).calls →
        v = n ∧ ∃ b, g.service.backend = some b ∧ answer = b path n) ∧
      ∀ ok, .urls ∈ g.reached r ok →
        ∃ path answer, Call.url path n answer ∈ (g.handle r).calls) ∧
    ∀ base path v, (base.authority = none → Backend.ofBase base path v = none) ∧
      ∀ host, base.authority = some host → PathText path →
        (path ++ "?watch=true&resourceVersion=" ++ toString v).utf8ByteSize ≤ 65534 →
        ∃ u, Backend.ofBase base path v = some u ∧ Backend.Resolves base host path v u := by
  have hcalls : ∀ ok, (g.handle r).calls = (g.reached r ok).flatMap (g.asks r) := fun ok =>
    (decides_of_handle g r 1 ok fun _ => .empty).calls
  refine ⟨⟨resourceVersion r.uri, (asksFrom_iff.mpr rfl).lt, fun m => asksFrom_iff, ?_, ?_⟩, ?_⟩
  · intro path v answer hcall
    rw [hcalls fun _ => true] at hcall
    obtain ⟨c, -, hc⟩ := List.mem_flatMap.mp hcall
    obtain ⟨rfl, hb⟩ := url_of_asks hc
    exact ⟨rfl, hb⟩
  · intro ok hreached
    obtain ⟨path, answer, hcall⟩ := exists_url_of_reached hreached
    rw [hcalls ok]
    exact ⟨path, answer, List.mem_flatMap.mpr ⟨.urls, hreached, hcall⟩⟩
  · intro base path v
    refine ⟨fun hnone => ?_, fun host hhost hpath hbytes => ?_⟩
    · unfold Backend.ofBase
      rw [hnone]
    · exact ⟨_, Backend.ofBase_of_text hhost hpath hbytes, Backend.resolves_urlOf base host path v⟩

/-- A base with a path of its own. -/
def clusterBase : Uri := ⟨some "https", some "kubernetes.default.svc", "/ignored", none⟩

/-- The request asks from version 7, and a version becomes a part of the URL. -/
theorem watchRequest_version :
    (∃ path answer, AsksFrom watchRequest.uri 7 ∧
      Call.url path 7 answer ∈ ((podsAndNodesGateway []).handle watchRequest).calls) ∧
    PathText "/api/v1/pods" ∧ ∃ u, Backend.ofBase clusterBase "/api/v1/pods" 42 = some u ∧
      u.render = "wss://kubernetes.default.svc/api/v1/pods?watch=true&resourceVersion=42" := by
  obtain ⟨⟨n, -, hasks, -, hsome⟩, hbases⟩ := version_kept (podsAndNodesGateway []) watchRequest
  have hseven : AsksFrom watchRequest.uri 7 := asksFrom_iff.mpr (by decide +kernel)
  obtain rfl : 7 = n := (hasks 7).mp hseven
  obtain ⟨path, answer, hcall⟩ := hsome (fun _ => true) (by decide +kernel)
  have hpath : PathText "/api/v1/pods" := ⟨⟨_, rfl⟩, List.all_eq_true.mp (by decide)⟩
  obtain ⟨u, hu, hholds⟩ := (hbases clusterBase "/api/v1/pods" 42).2 _ rfl hpath (by decide)
  refine ⟨⟨path, answer, hseven, hcall⟩, hpath, u, hu, ?_⟩
  rw [hholds.text]
  decide

end WatchGate.Gateway
