import Linkage.Proofs.Lookup.Replies
import Linkage.Proofs.Reconcile.Asked
import Linkage.Proofs.Reconcile.Locality

/-!
# What the answers of the space API mean

Whatever comes back from the API, a lookup answers with a business or with an error, and a pass over the
cluster relations goes on in either case.

* `Api.response?`           the response that came for a uid, if any did;
* `Response.Tells`, `Response.Denies`   it tells a business, or that there is no such space;
* `answer_eq_ok_iff`, `answer_notFound_iff`   the answer of a lookup in these terms;
* `Store.Answered`          what the responses mean for a pass: relations, failures and events;
* `api_answers_classified`  this holds of every pass, and none fails because of a response.
-/

namespace Linkage

namespace Response

/-- The status is one of those from 200 to 299. -/
def IsSuccess (r : Response) : Prop := 200 ≤ r.status ∧ r.status < 300

/-- The response tells the business of the space: its body writes a reply with a good result and with
data. -/
def Tells (r : Response) (business : Int) : Prop :=
  r.IsSuccess ∧ ∃ e d, ApiReply.IsBody r.body e ∧ e.result = true ∧ e.data = some d ∧
    d.business = business

/-- The response tells that there is no such space, by its status or by the code of a bad result. -/
def Denies (r : Response) : Prop :=
  r.status = 404 ∨
    r.IsSuccess ∧ ∃ e, ApiReply.IsBody r.body e ∧ e.result = false ∧ e.code = 404

end Response

namespace Api

/-- The response that comes for a uid; there is none for the empty uid, when no request can be made, and
when the request fails. -/
def response? (a : Api) (send : Transport) (uid : String) : Option Response :=
  if uid = "" then none else (a.request? uid).bind fun r => (send r).toOption

variable {a : Api} {send : Transport} {uid : String} {b : Int}

/-! ## one response -/

theorem ofReply_eq_ok_iff {e : ApiReply} :
    (∃ d, a.ofReply uid e = .ok d ∧ d.business = b) ↔
      ∃ d, e.result = true ∧ e.data = some d ∧ d.business = b := by
  unfold ofReply
  cases e.result with
  | false =>
    rw [if_neg Bool.false_ne_true]
    split <;> exact ⟨nofun, nofun⟩
  | true =>
    rw [if_pos rfl]
    cases e.data with
    | none => exact ⟨nofun, nofun⟩
    | some d =>
      constructor
      · rintro ⟨_, hd, hb⟩
        cases hd
        exact ⟨d, rfl, rfl, hb⟩
      · rintro ⟨_, -, hd, hb⟩
        cases hd
        exact ⟨_, rfl, hb⟩

theorem error_notFound_iff {e : Error} :
    (∃ x, (.error e : Except Error SpaceDetail) = .error x ∧ x.isSpaceNotFound = true) ↔
      e.isSpaceNotFound = true := by
  simp only [Except.error.injEq, exists_eq_left']

theorem ofReply_notFound_iff {e : ApiReply} :
    (∃ x, a.ofReply uid e = .error x ∧ x.isSpaceNotFound = true) ↔
      e.result = false ∧ e.code = 404 := by
  unfold ofReply
  cases e.result with
  | false =>
    rw [if_neg Bool.false_ne_true, and_iff_right rfl]
    by_cases hcode : e.code = 404
    · rw [if_pos hcode, error_notFound_iff]
      exact ⟨fun _ => hcode, fun _ => rfl⟩
    · rw [if_neg hcode, error_notFound_iff]
      exact ⟨nofun, fun h => absurd h hcode⟩
  | true =>
    rw [if_pos rfl]
    cases e.data with
    | none => exact error_notFound_iff.trans ⟨nofun, nofun⟩
    | some d => exact ⟨nofun, nofun⟩

theorem ofResponse_eq_ok_iff {r : Response} :
    (∃ d, a.ofResponse uid r = .ok d ∧ d.business = b) ↔ r.Tells b := by
  unfold ofResponse Response.Tells Response.IsSuccess
  simp only [← ApiReply.ofBytes?_eq_some_iff]
  by_cases h404 : r.status = 404
  · rw [if_pos h404]
    exact ⟨nofun, fun h => by omega⟩
  · rw [if_neg h404]
    by_cases hstatus : r.status < 200 ∨ 300 ≤ r.status
    · rw [if_pos hstatus]
      exact ⟨nofun, fun h => by omega⟩
    · have hsuccess : 200 ≤ r.status ∧ r.status < 300 := by omega
      rw [if_neg hstatus, and_iff_right hsuccess]
      cases ApiReply.ofBytes? r.body with
      | none => exact ⟨nofun, nofun⟩
      | some e =>
        simp only [ofReply_eq_ok_iff, Option.some.injEq, exists_and_left, exists_eq_left']

theorem ofResponse_notFound_iff {r : Response} :
    (∃ x, a.ofResponse uid r = .error x ∧ x.isSpaceNotFound = true) ↔ r.Denies := by
  unfold ofResponse Response.Denies Response.IsSuccess
  simp only [← ApiReply.ofBytes?_eq_some_iff]
  by_cases h404 : r.status = 404
  · rw [if_pos h404, error_notFound_iff]
    exact ⟨fun _ => .inl h404, fun _ => rfl⟩
  · rw [if_neg h404, or_iff_right h404]
    by_cases hstatus : r.status < 200 ∨ 300 ≤ r.status
    · rw [if_pos hstatus, error_notFound_iff]
      exact ⟨nofun, fun h => by omega⟩
    · have hsuccess : 200 ≤ r.status ∧ r.status < 300 := by omega
      rw [if_neg hstatus, and_iff_right hsuccess]
      cases ApiReply.ofBytes? r.body with
      | none => exact error_notFound_iff.trans ⟨nofun, nofun⟩
      | some e => simp only [ofReply_notFound_iff, Option.some.injEq, exists_eq_left']

/-! ## the answer to a uid -/

/-- a lookup answers by the response; without one it answers with an error that does not say that there
is no such space -/
theorem answer_cases (a : Api) (send : Transport) (uid : String) :
    (∃ r, a.response? send uid = some r ∧ a.answer send uid = a.ofResponse uid r) ∨
      a.response? send uid = none ∧
        ∃ e, a.answer send uid = .error e ∧ e.isSpaceNotFound = false := by
  unfold response? answer
  by_cases huid : uid = ""
  · rw [if_pos huid, if_pos huid]
    exact .inr ⟨rfl, _, rfl, rfl⟩
  · rw [if_neg huid, if_neg huid]
    cases a.request? uid with
    | none => exact .inr ⟨rfl, _, rfl, rfl⟩
    | some q =>
      show (∃ r, (send q).toOption = some r ∧ _) ∨ (send q).toOption = none ∧ _
      simp only
      cases send q with
      | ok r => exact .inl ⟨r, rfl, rfl⟩
      | error f => cases f <;> exact .inr ⟨rfl, _, rfl, rfl⟩

/-- a lookup answers with a business when the response tells it, and only then -/
theorem answer_eq_ok_iff : (∃ d, a.answer send uid = .ok d ∧ d.business = b) ↔
    ∃ r, a.response? send uid = some r ∧ r.Tells b := by
  rcases answer_cases a send uid with ⟨r, hr, hanswer⟩ | ⟨hnone, e, hanswer, -⟩
  · rw [hanswer, hr, ofResponse_eq_ok_iff]
    simp only [Option.some.injEq, exists_eq_left']
  · rw [hanswer, hnone]
    exact ⟨nofun, nofun⟩

/-- it answers that there is no such space when the response tells this, and only then -/
theorem answer_notFound_iff :
    (∃ e, a.answer send uid = .error e ∧ e.isSpaceNotFound = true) ↔
      ∃ r, a.response? send uid = some r ∧ r.Denies := by
  rcases answer_cases a send uid with ⟨r, hr, hanswer⟩ | ⟨hnone, e, hanswer, hno⟩
  · rw [hanswer, hr, ofResponse_notFound_iff]
    simp only [Option.some.injEq, exists_eq_left']
  · rw [hanswer, hnone, error_notFound_iff, hno]
    exact ⟨nofun, nofun⟩

end Api

/-! ## a pass -/

theorem Lookup.ofApi_answer (a : Api) (send : Transport) (uid : String) :
    (Lookup.ofApi a send).answer uid = a.answer send uid := rfl

namespace Derivation

theorem failure?_eq_some_iff {lookup : Lookup} {project : String} {event : Event} :
    failure? lookup project = some event ↔
      ∃ e, lookup.answer (spaceUid .project project) = .error e ∧ event = failed project e := by
  unfold failure?
  cases lookup.answer (spaceUid .project project) with
  | ok d => exact ⟨nofun, nofun⟩
  | error e =>
    simp only [Option.some.injEq, Except.error.injEq, exists_eq_left']
    exact eq_comm

theorem isSome_failure? {lookup : Lookup} {project : String} :
    (failure? lookup project).isSome ↔
      ¬∃ d, lookup.answer (spaceUid .project project) = .ok d := by
  unfold failure?
  cases lookup.answer (spaceUid .project project) with
  | ok d => exact ⟨nofun, fun h => absurd ⟨d, rfl⟩ h⟩
  | error e => exact ⟨fun _ => nofun, fun _ => rfl⟩

/-- the projects whose lookup fails, each with what is told about it -/
theorem forall₂_failure? (lookup : Lookup) (ps : List String) :
    List.Forall₂ (fun p event => failure? lookup p = some event)
      (ps.filter fun p => (failure? lookup p).isSome) (ps.filterMap (failure? lookup)) := by
  induction ps with
  | nil => exact .nil
  | cons p ps ih =>
    cases hp : failure? lookup p with
    | none =>
      rw [List.filterMap_cons_none hp, List.filter_cons_of_neg (by rw [hp]; exact nofun)]
      exact ih
    | some event =>
      rw [List.filterMap_cons_some hp, List.filter_cons_of_pos (by rw [hp]; rfl)]
      exact .cons hp ih

end Derivation

/-- What the responses of the API mean for a pass over the store `s`, which leaves the store `u`. -/
structure Store.Answered (s u : Store) (overrides : Overrides) (a : Api) (send : Transport)
    (run : ReconcileRun) (report : RelationReport) : Prop where
  /-- a project keeps the relations that it has anyway, and has each of them once more, with the
  business that a response tells for it unless this is zero -/
  keys : ∀ k, k ∈ u.relationKeys ↔ ∃ project first, s.Relates overrides project first ∧
    (k = first ∨ ∃ r b, a.response? send (spaceUid .project project) = some r ∧ r.Tells b ∧
      b ≠ 0 ∧ k = { first with business := Text.Decimal.text b })
  /-- a project with relations for which no response tells a business counts as one failure, and one
  event says whether there is no such space -/
  failures : ∃ projects : List String, projects.Nodup ∧
    (∀ p, p ∈ projects ↔ (∃ k, s.Relates overrides p k) ∧
      ¬∃ r b, a.response? send (spaceUid .project p) = some r ∧ r.Tells b) ∧
    report.lookupFailures = projects.length ∧
    List.Forall₂ (fun p e => ∃ notFound message,
        e = .cluster (.lookupFailed p (spaceUid .project p) notFound message) ∧
        (notFound = true ↔ ∃ r, a.response? send (spaceUid .project p) = some r ∧ r.Denies))
      projects (run.events.filter Event.isLookupFailure)

section
variable {a : Api} {send : Transport} {overrides : Overrides} {s u : Store}

theorem Completed.answered_keys (h : Completed overrides (.ofApi a send) s u) (k : RelationKey) :
    k ∈ u.relationKeys ↔ ∃ project first, s.Relates overrides project first ∧
      (k = first ∨ ∃ r b, a.response? send (spaceUid .project project) = some r ∧ r.Tells b ∧
        b ≠ 0 ∧ k = { first with business := Text.Decimal.text b }) := by
  rw [h.mem_iff, Store.mem_desired_iff]
  refine exists_congr fun project => Store.declares_iff.trans (exists_congr fun first => ?_)
  refine and_congr_right fun _ => or_congr_right ?_
  rw [Lookup.ofApi_answer]
  constructor
  · rintro ⟨d, hd, hne, rfl⟩
    obtain ⟨r, hr, htells⟩ := Api.answer_eq_ok_iff.1 ⟨d, hd, rfl⟩
    exact ⟨r, _, hr, htells, hne, rfl⟩
  · rintro ⟨r, b, hr, htells, hne, rfl⟩
    obtain ⟨d, hd, rfl⟩ := Api.answer_eq_ok_iff.2 ⟨r, hr, htells⟩
    exact ⟨d, hd, hne, rfl⟩

theorem isSome_failure?_iff {project : String} :
    (Derivation.failure? (.ofApi a send) project).isSome ↔
      ¬∃ r b, a.response? send (spaceUid .project project) = some r ∧ r.Tells b := by
  rw [Derivation.isSome_failure?, not_iff_not, Lookup.ofApi_answer]
  constructor
  · intro ⟨d, hd⟩
    obtain ⟨r, hr, htells⟩ := Api.answer_eq_ok_iff.1 ⟨d, hd, rfl⟩
    exact ⟨r, _, hr, htells⟩
  · intro ⟨r, b, hr, htells⟩
    obtain ⟨d, hd, -⟩ := Api.answer_eq_ok_iff.2 ⟨r, hr, htells⟩
    exact ⟨d, hd⟩

theorem answered_reconcile {clock : Clock} {db : Db} {report : RelationReport}
    (h : (reconcile overrides (.ofApi a send) clock db).1.result = .ok report) :
    db.store.Answered (reconcile overrides (.ofApi a send) clock db).2.store overrides a send
      (reconcile overrides (.ofApi a send) clock db).1 report where
  keys := Completed.answered_keys ⟨clock, db, report, rfl, h, rfl⟩
  failures := by
    let lookup := Lookup.ofApi a send
    let projects := (db.store.registry.1.contributors overrides).eraseDups
    have hasked := Derivation.asked_run db.store.registry.1 overrides lookup
    have htold := Derivation.forall₂_failure? lookup projects
    have hcount : report.lookupFailures = (db.store.derived overrides lookup).failures := by
      obtain ⟨c, -, rfl⟩ := reconcile_report h
      rfl
    have hevents := (failures_told overrides lookup clock db).1 report h
    refine ⟨projects.filter fun p => (Derivation.failure? lookup p).isSome,
      (nodup_eraseDups _).filter _, fun p => ?_, ?_, ?_⟩
    · rw [List.mem_filter, List.mem_eraseDups, Store.mem_contributors_iff, isSome_failure?_iff]
    · rw [hcount, htold.length_eq]
      exact hasked.counted
    · rw [hevents]
      refine htold.imp fun p event hp => ?_
      obtain ⟨e, he, rfl⟩ := Derivation.failure?_eq_some_iff.1 hp
      rw [Lookup.ofApi_answer] at he
      refine ⟨e.isSpaceNotFound, e.message, rfl, ?_⟩
      rw [← Api.answer_notFound_iff, he, Api.error_notFound_iff]

end

/-- Whatever an API does, and however names of hosts are written.  A lookup answers with a business
exactly when the response has a good status and a body that writes a reply with a good result and this
business; it answers that there is no such space exactly when the status is 404, or the status is good
and the body writes a reply with a bad result and the code 404.  No pass fails because of a response:
on a store that does not fail it ends with a report, and otherwise it does, and fails as, the same with
a lookup that answers no business instead of failing.  A pass that ends with a report has taken account
of each response. -/
theorem api_answers_classified (a : Api) (send : Transport) :
    (∀ uid,
      (∀ b, (∃ d, a.answer send uid = .ok d ∧ d.business = b) ↔
        ∃ r, a.response? send uid = some r ∧ r.Tells b) ∧
      ((∃ e, a.answer send uid = .error e ∧ e.isSpaceNotFound = true) ↔
        ∃ r, a.response? send uid = some r ∧ r.Denies)) ∧
    ∀ overrides clock db,
      let run := reconcile overrides (.ofApi a send) clock db
      let calm := reconcile overrides (Lookup.ofApi a send).forgiving clock db
      (db.Reliable → ∃ report, run.1.result = .ok report) ∧
      (∀ e, run.1.result = .error e ↔ calm.1.result = .error e) ∧
      ∀ report, run.1.result = .ok report →
        db.store.Answered run.2.store overrides a send run.1 report := by
  refine ⟨fun uid => ⟨fun b => Api.answer_eq_ok_iff, Api.answer_notFound_iff⟩,
    fun overrides clock db => ⟨reconcile_reliable, fun e => ?_, fun report => answered_reconcile⟩⟩
  exact reconcile_error_forgiving overrides (.ofApi a send) clock db e

/-- The API at an address without a path. -/
def Api.sample : Api where
  baseUrl := "http://h"
  timeout := Api.standardTimeout
  token := none

/-- it asks for every uid but the empty one -/
theorem Api.response?_sample (uid : String) (h : uid ≠ "") (r : Response) :
    Api.sample.response? (fun _ => .ok r) uid = some r := by
  have hurl : (Url.parse? Api.sample.names Api.sample.detailUrl).isSome = true := by decide +kernel
  obtain ⟨url, hurl⟩ := Option.isSome_iff_exists.1 hurl
  unfold response? request?
  rw [if_neg h, hurl]
  rfl

/-- A response that tells a business, beside a member that nothing can be made of. -/
def Response.overfull : Response where
  status := 200
  body := "\x7b\"result\":true,\"data\":\x7b\"bk_biz_id\":5\x7d,\"extra\":[1e999,\"\\ud800\"]\x7d".toUTF8

theorem api_answers_classified_overfull : Response.overfull.Tells 5 ∧
    ∃ d, Api.sample.answer (fun _ => .ok .overfull) "bkci__p1" = .ok d ∧ d.business = 5 := by
  have hread : ApiReply.ofBytes? Response.overfull.body = some ⟨true, 0, "", some ⟨5, none⟩⟩ := by
    decide +kernel
  have htells : Response.overfull.Tells 5 :=
    ⟨⟨by decide, by decide⟩, _, _, ApiReply.ofBytes?_eq_some_iff.1 hread, rfl, rfl, rfl⟩
  have hclassified := (api_answers_classified .sample fun _ => .ok .overfull).1 "bkci__p1"
  exact ⟨htells, (hclassified.1 5).2 ⟨_, Api.response?_sample _ (by decide) _, htells⟩⟩

end Linkage
