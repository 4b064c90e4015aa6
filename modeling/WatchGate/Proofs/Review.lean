import WatchGate.Cluster.Api
import WatchGate.Proofs.Probe.Balance

/-!
# WatchGate — reviews say what was asked

A question is put to the cluster as a document. An empty namespace, subresource or
name has no member in it, the kind is there by its group only, and the verb by its
word. `Review.ofDocument?` reads a document the other way, so that two reviews with
one document are one review; and a review is that of a question in all but what the
kind has besides its group.

The answer comes as a document too, if it comes. It allows what was asked if it has a
status in which this is said (`Permits`), and whatever else it says is a denial; a
call without a document, or with one of another form, is an error. A grant is the
last step of a probe, and `Balanced` leads from it back to the question that was put.

Main results:

* `ofDocument?_document` — a document says which review it is of.
* `verdict_eq_allow_iff`, `verdict_eq_deny_iff` and `verdict_eq_error_iff` — what is
  made of an answer.
* `reviews_faithful` — what is asked is what is reviewed, and what is granted was
  allowed.
-/

namespace WatchGate

open Probe

/-- Two questions that differ in nothing but what their kinds have besides the group. -/
structure Question.Same (p q : Question) : Prop where
  group : p.kind.group = q.kind.group
  resource : p.resource = q.resource
  verb : p.verb = q.verb
  ns : p.ns = q.ns
  subresource : p.subresource = q.subresource
  name : p.name = q.name

namespace Cluster

variable {i j : Identity} {p q : Question} {r : Review}

-- ---------------------------------------------------------------------------
-- Reviews of questions
-- ---------------------------------------------------------------------------

theorem nonEmpty?_eq_some {a b : String} (h : Review.nonEmpty? a = some b) : b = a := by
  unfold Review.nonEmpty? at h
  split at h
  · cases h
  · exact (Option.some.inj h).symm

theorem nonEmpty?_injective {a b : String} (h : Review.nonEmpty? a = Review.nonEmpty? b) :
    a = b := by
  unfold Review.nonEmpty? at h
  by_cases ha : a = "" <;> by_cases hb : b = "" <;> simp_all

theorem make_eq_iff : Review.make i p = Review.make j q ↔ i = j ∧ p.Same q := by
  constructor
  · intro h
    obtain ⟨hi, hgroup, hresource, hverb, hns, hsub, hname⟩ := Review.mk.inj h
    exact ⟨hi, hgroup, hresource, hverb, nonEmpty?_injective hns, nonEmpty?_injective hsub,
      nonEmpty?_injective hname⟩
  · rintro ⟨rfl, h⟩
    unfold Review.make
    rw [h.group, h.resource, h.verb, h.ns, h.subresource, h.name]

-- ---------------------------------------------------------------------------
-- Documents of reviews
-- ---------------------------------------------------------------------------

namespace Review

/-- The text of a member, if it has one. -/
def said? (j : Json) (name : String) : Option String := (j.field? name).bind Json.text?

/-- The review that a document is of. -/
def ofDocument? (j : Json) : Option Review := do
  let spec ← j.field? "spec"
  let attributes ← spec.field? "resourceAttributes"
  let groups ← (spec.field? "groups").bind Json.items?
  return {
    caller := ⟨← said? spec "user", ← groups.mapM Json.text?⟩
    group := ← said? attributes "group"
    resource := ← said? attributes "resource"
    verb := ← (said? attributes "verb").bind Verb.ofWord?
    ns := said? attributes "namespace"
    subresource := said? attributes "subresource"
    name := said? attributes "name" }

/-- What the attributes of a review say. A member that is left out is not there. -/
structure Attributes (r : Review) (j : Json) : Prop where
  group : j.field? "group" = some (.str r.group)
  resource : j.field? "resource" = some (.str r.resource)
  verb : j.field? "verb" = some (.str r.verb.word)
  ns : j.field? "namespace" = r.ns.map .str
  subresource : j.field? "subresource" = r.subresource.map .str
  name : j.field? "name" = r.name.map .str

theorem attributes_attributes (r : Review) : r.Attributes r.attributes := by
  obtain ⟨caller, group, resource, verb, ns, subresource, name⟩ := r
  constructor <;> cases ns <;> cases subresource <;> cases name <;>
    simp [attributes, member, Json.field?]

theorem mapM_text?_ofStrings (xs : List String) : (xs.map Json.str).mapM Json.text? = some xs := by
  induction xs with
  | nil => rfl
  | cons x xs ih => simp [Json.text?, ih]

theorem text?_map_str (x : Option String) : (x.map Json.str).bind Json.text? = x := by
  cases x <;> rfl

/-- A document says which review it is of. -/
theorem ofDocument?_document (r : Review) : ofDocument? r.document = some r := by
  have hspec : r.document.field? "spec" = some r.spec := by simp [document, Json.field?]
  have huser : r.spec.field? "user" = some (.str r.caller.user) := by simp [spec, Json.field?]
  have hgroups : r.spec.field? "groups" = some (Json.ofStrings r.caller.groups) := by
    simp [spec, Json.field?]
  have hattributes : r.spec.field? "resourceAttributes" = some r.attributes := by
    simp [spec, Json.field?]
  have h := attributes_attributes r
  simp only [ofDocument?, said?, hspec, huser, hgroups, hattributes, h.group, h.resource, h.verb,
    h.ns, h.subresource, h.name, text?_map_str, Option.bind_eq_bind, Option.bind_some,
    Json.items?, Json.ofStrings, Json.text?, mapM_text?_ofStrings, Verb.ofWord?_word]
  rfl

theorem document_injective {r r' : Review} (h : r.document = r'.document) : r = r' := by
  have hback := ofDocument?_document r
  rw [h, ofDocument?_document] at hback
  exact (Option.some.inj hback).symm

/-- What the document of a question has to say: whom it is about and what is asked,
and nothing of what is empty. -/
structure States (j : Json) (i : Identity) (q : Question) : Prop where
  caller : ∃ spec, j.field? "spec" = some spec ∧ spec.field? "user" = some (.str i.user) ∧
    spec.field? "groups" = some (Json.ofStrings i.groups)
  asked : ∃ a, (j.field? "spec").bind (·.field? "resourceAttributes") = some a ∧
    a.field? "group" = some (.str q.kind.group) ∧ a.field? "resource" = some (.str q.resource) ∧
    a.field? "verb" = some (.str q.verb.word) ∧
    a.field? "namespace" = (if q.ns = "" then none else some (.str q.ns)) ∧
    a.field? "subresource" = (if q.subresource = "" then none else some (.str q.subresource)) ∧
    a.field? "name" = if q.name = "" then none else some (.str q.name)

theorem map_nonEmpty? (x : String) :
    (nonEmpty? x).map Json.str = if x = "" then none else some (.str x) := by
  unfold nonEmpty?
  by_cases hx : x = "" <;> simp [hx]

theorem states_document (i : Identity) (q : Question) : States (make i q).document i q where
  caller := ⟨(make i q).spec, by simp [document, Json.field?], by simp [spec, Json.field?, make],
    by simp [spec, Json.field?, make]⟩
  asked := by
    have h := attributes_attributes (make i q)
    refine ⟨(make i q).attributes, by simp [document, spec, Json.field?], h.group, h.resource,
      h.verb, ?_, ?_, ?_⟩
    · exact h.ns.trans (map_nonEmpty? q.ns)
    · exact h.subresource.trans (map_nonEmpty? q.subresource)
    · exact h.name.trans (map_nonEmpty? q.name)

-- ---------------------------------------------------------------------------
-- Answers
-- ---------------------------------------------------------------------------

/-- What is said in the document that answers a review, where there is one: the call
went through, no failure is stated, and the document has the form of an answer. -/
def Answers (x : Except Failure Reply) (j : Json) : Prop :=
  ∃ r, x = .ok r ∧ ¬ (400 ≤ r.status ∧ r.status < 600) ∧
    Json.parse? r.body.toList = some j ∧ shape.fits j = true

/-- Whether an answer says in so many words that what was asked is allowed. -/
def Permits (j : Json) : Prop :=
  ∃ status, j.field? "status" = some status ∧ status.field? "allowed" = some (.bool true)

theorem allowed_iff {j : Json} : allowed j = true ↔ Permits j := by
  unfold allowed Permits truthOf
  cases j.field? "status" with
  | none => simp
  | some status =>
    cases h : status.field? "allowed" with
    | none => simp [h]
    | some v => cases v <;> simp [h, Json.bool?]

theorem document_eq_ok_iff {x : Reply} {j : Json} : x.document = .ok j ↔
    ¬ (400 ≤ x.status ∧ x.status < 600) ∧ Json.parse? x.body.toList = some j := by
  have hfailed : x.failed = true ↔ 400 ≤ x.status ∧ x.status < 600 := by simp [Reply.failed]
  unfold Reply.document
  rw [← hfailed]
  cases x.failed with
  | true => simp
  | false => cases Json.parse? x.body.toList <;> simp

theorem read_eq_ok_iff {s : Shape} {x : Reply} {j : Json} :
    x.read s = .ok j ↔ x.document = .ok j ∧ s.fits j = true := by
  unfold Reply.read
  cases x.document with
  | error e => simp
  | ok j' =>
    simp only [Except.ok.injEq]
    constructor
    · intro h
      split at h
      · next hfits =>
        cases h
        exact ⟨rfl, hfits⟩
      · cases h
    · rintro ⟨rfl, hfits⟩
      rw [if_pos hfits]

/-- Where there is an answer, it is taken for what it says. -/
theorem answer_eq_ok_iff {x : Except Failure Reply} {b : Bool} :
    x.bind answer = .ok b ↔ ∃ j, Answers x j ∧ allowed j = b := by
  cases x with
  | error e =>
    refine ⟨nofun, ?_⟩
    rintro ⟨j, ⟨r, hr, -⟩, -⟩
    cases hr
  | ok r =>
    have hread : ∀ j, Answers (.ok r) j ↔ r.read shape = .ok j := by
      intro j
      rw [read_eq_ok_iff, document_eq_ok_iff]
      simp only [Answers, Except.ok.injEq, exists_eq_left', and_assoc]
    have hanswer : (Except.ok r : Except Failure Reply).bind answer =
        (r.read shape).map allowed := rfl
    simp only [hread, hanswer]
    cases r.read shape <;> simp [Except.map]

end Review

namespace Api

variable {a : Api}

/-- What the verdict on a question goes by. -/
theorem verdict_decide (a : Api) (i : Identity) (q : Question) : (a.decide i q).verdict =
    match (a.post (Review.make i q)).1.bind Review.answer with
    | .ok true => .allow
    | .ok false => .deny
    | .error _ => .error := rfl

theorem verdict_eq_allow_iff : (a.decide i q).verdict = .allow ↔
    ∃ j, Review.Answers (a.post (Review.make i q)).1 j ∧ Review.Permits j := by
  simp only [← Review.allowed_iff, ← Review.answer_eq_ok_iff]
  rw [verdict_decide]
  split <;> simp [*]

theorem verdict_eq_deny_iff : (a.decide i q).verdict = .deny ↔
    ∃ j, Review.Answers (a.post (Review.make i q)).1 j ∧ ¬ Review.Permits j := by
  simp only [← Review.allowed_iff, Bool.not_eq_true, ← Review.answer_eq_ok_iff]
  rw [verdict_decide]
  split <;> simp [*]

theorem verdict_eq_error_iff : (a.decide i q).verdict = .error ↔
    ∀ j, ¬ Review.Answers (a.post (Review.make i q)).1 j := by
  have hallow := verdict_eq_allow_iff (a := a) (i := i) (q := q)
  have hdeny := verdict_eq_deny_iff (a := a) (i := i) (q := q)
  constructor
  · intro h j hj
    by_cases hp : Review.Permits j
    · cases h.symm.trans (hallow.mpr ⟨j, hj, hp⟩)
    · cases h.symm.trans (hdeny.mpr ⟨j, hj, hp⟩)
  · intro h
    cases hv : (a.decide i q).verdict with
    | allow =>
      obtain ⟨j, hj, -⟩ := hallow.mp hv
      exact absurd hj (h j)
    | deny =>
      obtain ⟨j, hj, -⟩ := hdeny.mp hv
      exact absurd hj (h j)
    | error => rfl

end Api

-- ---------------------------------------------------------------------------
-- Questions, reviews and grants
-- ---------------------------------------------------------------------------

/--
**A review says what was asked, and an answer is taken for no more than it says.** For
all callers and questions: two reviews are the same, and have the same document, exactly
if they are about one caller and the questions differ in nothing but what their kinds
have besides the group. The document holds each part of the question, and no member for
a part that is empty. For every API, whatever it replies: a question is allowed if there
is an answer that says so, denied if there is any other answer, and without an answer it
is an error. In every state of every run of probes, each grant is that of a question that
was put, and that the API answered by saying that it is allowed.
-/
theorem reviews_faithful :
    (∀ i j p q, Review.make i p = Review.make j q ↔ i = j ∧ p.Same q) ∧
    (∀ i j p q, (Review.make i p).document = (Review.make j q).document ↔ i = j ∧ p.Same q) ∧
    (∀ i q, Review.States (Review.make i q).document i q) ∧
    ∀ (a : Api) (i : Identity),
      (∀ q, ((a.decide i q).verdict = .allow ↔
          ∃ j, Review.Answers (a.post (Review.make i q)).1 j ∧ Review.Permits j) ∧
        ((a.decide i q).verdict = .deny ↔
          ∃ j, Review.Answers (a.post (Review.make i q)).1 j ∧ ¬ Review.Permits j) ∧
        ((a.decide i q).verdict = .error ↔
          ∀ j, ¬ Review.Answers (a.post (Review.make i q)).1 j)) ∧
      ∀ c limits namespaces qs st,
        Reachable ((a.access c limits).setting i namespaces) qs st →
        ∀ g ∈ st.channel ++ st.grants, ∃ q ∈ st.asked, q.grant = g ∧
          ∃ j, Review.Answers (a.post (Review.make i q)).1 j ∧ Review.Permits j := by
  refine ⟨fun i j p q => make_eq_iff, fun i j p q => ?_, Review.states_document,
    fun a i => ⟨?_, ?_⟩⟩
  · rw [← make_eq_iff]
    exact ⟨Review.document_injective, congrArg Review.document⟩
  · exact fun q => ⟨Api.verdict_eq_allow_iff, Api.verdict_eq_deny_iff, Api.verdict_eq_error_iff⟩
  · intro c limits namespaces qs st h g hg
    obtain ⟨q, hq, hallowed, hgrant⟩ := h.exists_asked hg
    obtain ⟨hverdict, -⟩ := Setting.outcome_eq_allowed_iff.mp hallowed
    exact ⟨q, hq, hgrant, Api.verdict_eq_allow_iff.mp hverdict⟩

-- ---------------------------------------------------------------------------
-- An API that allows one thing
-- ---------------------------------------------------------------------------

/-- An answer in so many words. -/
def sayingYes : Reply :=
  ⟨201, "\x7b\"kind\":\"SubjectAccessReview\",\"status\":\x7b\"allowed\":true\x7d\x7d"⟩

/-- An answer without a status. -/
def sayingNothing : Reply := ⟨201, "\x7b\"kind\":\"SubjectAccessReview\"\x7d"⟩

/-- Whoever it is about, this API allows what is asked about one team's namespace, and
gives an answer without a status to everything else. -/
def teamApi : Api :=
  ⟨fun _ => .error .unreachable,
    fun r => (.ok (if r.ns = some "team-a" then sayingYes else sayingNothing), 0)⟩

/-- The kind of pods. -/
def pods : Kind := ⟨"Pod", "pods", "api/v1", true⟩

/-- The probes of whoever asks there. -/
def teamProbes : Setting :=
  (teamApi.access .empty .standard).setting ⟨"alice", []⟩ ["team-a"]

/-- May pods be watched: across the cluster, which comes to nothing, and then in the
team's namespace. -/
def twoAnswers : List Probe.Event :=
  [.start, .close, .ask 0, .settle 0, .record 0, .spread 0, .retire 0, .ask 0, .settle 0,
    .record 0, .send 0]

/-- The one grant there is goes back to the question that was allowed. -/
theorem teamApi_faithful :
    ∃ st, Reachable teamProbes [.about pods "pods" .watch] st ∧ st.asked.length = 2 ∧
      st.channel = [⟨pods, .watch, "", "team-a"⟩] ∧
      ∃ q ∈ st.asked, q.ns = "team-a" ∧ ∃ j,
        Review.Answers (teamApi.post (Review.make ⟨"alice", []⟩ q)).1 j ∧ Review.Permits j := by
  have hrun : (run teamProbes (.initial teamProbes [.about pods "pods" .watch]) twoAnswers).map
      (fun st => (st.asked.length, st.channel)) =
      some (2, [⟨pods, .watch, "", "team-a"⟩]) := by decide +kernel
  obtain ⟨st, hst, hseen⟩ := Option.map_eq_some_iff.mp hrun
  obtain ⟨hasked, hchannel⟩ := Prod.mk.inj hseen
  have hreach : Reachable teamProbes [.about pods "pods" .watch] st := ⟨twoAnswers, hst⟩
  obtain ⟨q, hq, hgrant, hpermits⟩ := (reviews_faithful.2.2.2 teamApi ⟨"alice", []⟩).2
    .empty .standard ["team-a"] [.about pods "pods" .watch] st hreach
    ⟨pods, .watch, "", "team-a"⟩ (by simp [hchannel])
  exact ⟨st, hreach, hasked, hchannel, q, hq, congrArg Grant.ns hgrant, hpermits⟩

end Cluster

end WatchGate
