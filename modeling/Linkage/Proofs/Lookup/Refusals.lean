import Linkage.Proofs.Lookup.Answers

/-!
# What is made of a response that refuses

A response can have a good status and tell, by a bad result and a code, why there is no answer.  It is
understood when the rest of its body has the form of a reply as well: the data of a refusal must be
that of a space.

* `Response.Refuses`        a response refuses with a code;
* `Raw.FitsReply`           the other members have the form of a reply;
* `Refuses.exists_isBody_iff`   these bodies write replies, and no others of a refusal;
* `answer_of_refuses`       the answer of a lookup that is refused;
* `refusals_read`           the answers and what a pass tells about them;
* `refusal_not_understood`  a refusal with empty data.
-/

namespace Linkage

namespace Json.Raw

/-- The members beside the result and the code have the form of a reply. -/
structure FitsReply (es : List (String × Raw)) : Prop where
  message : ∀ v, ("message", v) ∈ es → ∃ t, v.IsText t
  data : ∀ v, ("data", v) ∈ es → v = .null ∨ ∃ d, v.IsSpaceData d

/-- The text under `message`; the empty one if there is no such member. -/
def HasMessage (es : List (String × Raw)) (t : String) : Prop :=
  (∃ v, ("message", v) ∈ es ∧ v.IsText t) ∨ t = "" ∧ ∀ v, ("message", v) ∉ es

theorem IsInt64.eq {v : Raw} {i j : Int} (hi : v.IsInt64 i) (hj : v.IsInt64 j) : i = j :=
  Option.some.inj ((read?_int64.2 hi).symm.trans (read?_int64.2 hj))

end Json.Raw

namespace Response

/-- The response refuses: its status is good, and its body is an object that repeats no member of a
reply and has a bad result and a code. -/
structure Refuses (r : Response) (es : List (String × Json.Raw)) (code : Int) : Prop where
  status : r.IsSuccess
  body : ∃ v, Json.Writes r.body v ∧ v.members? = some es
  once : ∀ n ∈ ["result", "code", "message", "data"], es.countP (fun e => e.1 = n) ≤ 1
  result : ("result", .bool false) ∈ es
  coded : ∃ v, ("code", v) ∈ es ∧ v.IsInt64 code

variable {r : Response} {es : List (String × Json.Raw)} {code : Int} (h : r.Refuses es code)
include h

/-- the members say which reply it is -/
theorem Refuses.isBody_iff {e : ApiReply} :
    ApiReply.IsBody r.body e ↔ Json.Raw.AreReply es e := by
  obtain ⟨v, hwrites, hmembers⟩ := h.body
  constructor
  · rintro ⟨w, hw, fs, hlists, hreply, -⟩
    have hparse := Json.Raw.parse?_eq_some_iff.2 hwrites
    rw [Json.Raw.parse?_eq_some_iff.2 hw] at hparse
    cases hparse
    rcases hlists with ⟨hfs, -⟩ | ⟨xs, rfl, -, -⟩
    · cases hmembers.symm.trans hfs
      exact hreply
    · cases hmembers
  · intro hreply
    refine ⟨v, hwrites, es, .inl ⟨hmembers, h.once⟩, hreply, ?_⟩
    rintro ⟨xs, rfl⟩
    cases hmembers

theorem Refuses.of_isBody {e : ApiReply} (he : ApiReply.IsBody r.body e) :
    e.result = false ∧ e.code = code ∧ Json.Raw.HasMessage es e.message := by
  have hreply := h.isBody_iff.1 he
  obtain ⟨v, hv, hint⟩ := h.coded
  refine ⟨?_, ?_, hreply.message⟩
  · obtain ⟨w, hw, rfl⟩ := hreply.result
    exact Json.Raw.bool.inj (Record.eq_of_mem (h.once _ (by decide)) hw h.result)
  · rcases hreply.code with ⟨w, hw, hcode⟩ | ⟨-, hno⟩
    · cases Record.eq_of_mem (h.once _ (by decide)) hv hw
      exact hcode.eq hint
    · exact absurd hv (hno v)

/-- a refusal is a reply when its other members have the form of a reply, and not otherwise -/
theorem Refuses.exists_isBody_iff :
    (∃ e, ApiReply.IsBody r.body e) ↔ Json.Raw.FitsReply es := by
  simp only [h.isBody_iff]
  constructor
  · rintro ⟨e, hreply⟩
    constructor
    · intro v hv
      rcases hreply.message with ⟨w, hw, htext⟩ | ⟨-, hno⟩
      · exact ⟨_, Record.eq_of_mem (h.once _ (by decide)) hw hv ▸ htext⟩
      · exact absurd hv (hno v)
    · intro v hv
      rcases hreply.data with ⟨w, hw, hdata⟩ | ⟨-, hno⟩
      · rw [Record.eq_of_mem (h.once _ (by decide)) hv hw]
        rcases hdata with ⟨hnull, -⟩ | ⟨d, hd, -⟩
        · exact .inl hnull
        · exact .inr ⟨d, hd⟩
      · exact absurd hv (hno v)
  · rintro ⟨hmessage, hdata⟩
    have htext : ∃ t, Json.Raw.HasMessage es t := by
      by_cases hno : ∀ v, ("message", v) ∉ es
      · exact ⟨"", .inr ⟨rfl, hno⟩⟩
      · obtain ⟨v, hv⟩ := not_forall_not.1 hno
        obtain ⟨t, ht⟩ := hmessage v hv
        exact ⟨t, .inl ⟨v, hv, ht⟩⟩
    have hspace : ∃ d, (∃ v, ("data", v) ∈ es ∧ v.IsData d) ∨ d = none ∧ ∀ v, ("data", v) ∉ es := by
      by_cases hno : ∀ v, ("data", v) ∉ es
      · exact ⟨none, .inr ⟨rfl, hno⟩⟩
      · obtain ⟨v, hv⟩ := not_forall_not.1 hno
        rcases hdata v hv with hnull | ⟨d, hd⟩
        · exact ⟨none, .inl ⟨v, hv, .inl ⟨hnull, rfl⟩⟩⟩
        · exact ⟨some d, .inl ⟨v, hv, .inr ⟨d, hd, rfl⟩⟩⟩
    obtain ⟨t, ht⟩ := htext
    obtain ⟨d, hd⟩ := hspace
    exact ⟨⟨false, code, t, d⟩, ⟨_, h.result, rfl⟩, .inl h.coded, ht, hd⟩

/-- a refusal denies that there is such a space when it is understood and has the code for this -/
theorem Refuses.denies_iff : r.Denies ↔ code = 404 ∧ Json.Raw.FitsReply es := by
  have hstatus : r.status ≠ 404 := by
    have := h.status.2
    omega
  unfold Denies
  rw [or_iff_right hstatus, and_iff_right h.status, ← h.exists_isBody_iff]
  constructor
  · rintro ⟨e, he, -, hcode⟩
    exact ⟨(h.of_isBody he).2.1.symm.trans hcode, e, he⟩
  · intro ⟨hcode, e, he⟩
    obtain ⟨hresult, hecode, -⟩ := h.of_isBody he
    exact ⟨e, he, hresult, hecode.trans hcode⟩

end Response

namespace Api

variable {a : Api} {send : Transport} {uid : String} {r : Response} {es : List (String × Json.Raw)}
  {code : Int}

/-- What is answered when the response refuses: that there is no such space or that it was rejected,
if the response is understood. -/
structure Refused (a : Api) (uid : String) (es : List (String × Json.Raw)) (code : Int)
    (x : Except Error SpaceDetail) : Prop where
  notFound : code = 404 → Json.Raw.FitsReply es → x = .error (.space (.notFound uid))
  rejected : code ≠ 404 → Json.Raw.FitsReply es →
    ∃ t, Json.Raw.HasMessage es t ∧ x = .error (.space (.rejected uid t))
  invalid : ¬Json.Raw.FitsReply es →
    x = .error (.network (.invalidResponse a.detailUrl "error decoding response body"))

theorem ofResponse_of_refuses (h : r.Refuses es code) : a.Refused uid es code (a.ofResponse uid r) := by
  obtain ⟨hlow, hhigh⟩ := h.status
  unfold ofResponse
  rw [if_neg (by omega), if_neg (by omega)]
  cases he : ApiReply.ofBytes? r.body with
  | none =>
    have hno : ¬Json.Raw.FitsReply es := fun hfits => by
      obtain ⟨e, hbody⟩ := h.exists_isBody_iff.2 hfits
      cases he.symm.trans (ApiReply.ofBytes?_eq_some_iff.2 hbody)
    exact ⟨fun _ hfits => absurd hfits hno, fun _ hfits => absurd hfits hno, fun _ => rfl⟩
  | some e =>
    have hbody := ApiReply.ofBytes?_eq_some_iff.1 he
    have hfits : Json.Raw.FitsReply es := h.exists_isBody_iff.1 ⟨e, hbody⟩
    obtain ⟨hresult, hcode, hmessage⟩ := h.of_isBody hbody
    have hreply : a.ofReply uid e = if code = 404 then .error (.space (.notFound uid))
        else .error (.space (.rejected uid e.message)) := by
      unfold ofReply
      rw [hresult, hcode]
      rfl
    show a.Refused uid es code (a.ofReply uid e)
    rw [hreply]
    exact ⟨fun hc _ => if_pos hc, fun hc _ => ⟨_, hmessage, if_neg hc⟩, fun hno => absurd hfits hno⟩

theorem answer_of_refuses (hr : a.response? send uid = some r) (h : r.Refuses es code) :
    a.Refused uid es code (a.answer send uid) := by
  rcases answer_cases a send uid with ⟨r', hr', hanswer⟩ | ⟨hnone, -⟩
  · cases hr.symm.trans hr'
    rw [hanswer]
    exact ofResponse_of_refuses h
  · cases hr.symm.trans hnone

end Api

/-! ## a pass -/

section
variable {overrides : Overrides} {lookup : Lookup} {clock : Clock} {db : Db}

/-- a lookup is told as failed as it was answered -/
theorem answer_of_told {project uid message : String} {notFound : Bool}
    (h : .cluster (.lookupFailed project uid notFound message)
      ∈ (reconcile overrides lookup clock db).1.events) :
    ∃ e, lookup.answer (spaceUid .project project) = .error e ∧ notFound = e.isSpaceNotFound := by
  have hmem : Event.cluster (.lookupFailed project uid notFound message)
      ∈ (reconcile overrides lookup clock db).1.events.filter Event.isLookupFailure :=
    List.mem_filter.2 ⟨h, rfl⟩
  rcases (failures_told overrides lookup clock db).2 with hnone | htold
  · rw [hnone] at hmem
    cases hmem
  · rw [htold] at hmem
    obtain ⟨p, -, hp⟩ := List.mem_filterMap.1 hmem
    obtain ⟨e, he, hfailed⟩ := Derivation.failure?_eq_some_iff.1 hp
    cases hfailed
    exact ⟨e, he, rfl⟩

/-- a project with relations is told about when its lookup fails -/
theorem told_of_answer {report : RelationReport}
    (h : (reconcile overrides lookup clock db).1.result = .ok report) {project : String}
    (hproject : ∃ k, db.store.Relates overrides project k) {e : Error}
    (he : lookup.answer (spaceUid .project project) = .error e) :
    .cluster (.lookupFailed project (spaceUid .project project) e.isSpaceNotFound e.message)
      ∈ (reconcile overrides lookup clock db).1.events := by
  have hmem : Derivation.failed project e
      ∈ (reconcile overrides lookup clock db).1.events.filter Event.isLookupFailure := by
    rw [(failures_told overrides lookup clock db).1 report h]
    exact List.mem_filterMap.2 ⟨project, List.mem_eraseDups.2 (Store.mem_contributors_iff.2 hproject),
      Derivation.failure?_eq_some_iff.2 ⟨e, he, rfl⟩⟩
  exact (List.mem_filter.1 hmem).1

end

section
variable {a : Api} {send : Transport} {uid : String} {r : Response} {es : List (String × Json.Raw)}
  {code : Int}

theorem notFound_of_refuses (hr : a.response? send uid = some r) (h : r.Refuses es code) {e : Error}
    (he : a.answer send uid = .error e) :
    e.isSpaceNotFound = true ↔ code = 404 ∧ Json.Raw.FitsReply es := by
  have hdenies := @Api.answer_notFound_iff a send uid
  rw [he, Api.error_notFound_iff, hr] at hdenies
  simp only [Option.some.injEq, exists_eq_left'] at hdenies
  rw [hdenies, h.denies_iff]

theorem error_of_refuses (hr : a.response? send uid = some r) (h : r.Refuses es code) :
    ∃ e, a.answer send uid = .error e := by
  cases he : a.answer send uid with
  | error e => exact ⟨e, rfl⟩
  | ok d =>
    obtain ⟨r', hr', -, e, -, hdecoded, hgood, -⟩ := Api.answer_eq_ok_iff.1 ⟨d, he, rfl⟩
    cases hr.symm.trans hr'
    cases (h.of_isBody hdecoded).1.symm.trans hgood

end

/-- A response that refuses is understood when it has a text under `message`, if anything, and the data
of a space or nothing under `data`, if that is there.  A lookup then answers that there is no such
space when the code is 404, and that it was rejected when it is another; otherwise the answer is an
error about the body.  What a pass tells about such a lookup says that there is no such space when the
code is 404 and the response is understood. -/
theorem refusals_read (a : Api) (send : Transport) :
    (∀ uid r es code, a.response? send uid = some r → r.Refuses es code →
      a.Refused uid es code (a.answer send uid)) ∧
    ∀ overrides clock db project r es code,
      a.response? send (spaceUid .project project) = some r → r.Refuses es code →
      let run := (reconcile overrides (.ofApi a send) clock db).1
      (∀ uid notFound message, .cluster (.lookupFailed project uid notFound message) ∈ run.events →
        (notFound = true ↔ code = 404 ∧ Json.Raw.FitsReply es)) ∧
      ∀ report, run.result = .ok report → (∃ k, db.store.Relates overrides project k) →
        ∃ uid notFound message,
          .cluster (.lookupFailed project uid notFound message) ∈ run.events := by
  refine ⟨fun uid r es code => Api.answer_of_refuses, ?_⟩
  intro overrides clock db project r es code hr h run
  refine ⟨fun uid notFound message htold => ?_, fun report hok hproject => ?_⟩
  · obtain ⟨e, he, rfl⟩ := answer_of_told htold
    rw [Lookup.ofApi_answer] at he
    exact notFound_of_refuses hr h he
  · obtain ⟨e, he⟩ := error_of_refuses hr h
    rw [← Lookup.ofApi_answer] at he
    exact ⟨_, _, _, told_of_answer hok hproject he⟩

/-- A response that there is no such space, with an empty object under `data`. -/
def Response.emptyData : Response where
  status := 200
  body := "\x7b\"result\":false,\"code\":404,\"message\":\"gone\",\"data\":\x7b\x7d\x7d".toUTF8

/-- Its members, as they are written. -/
def Response.emptyDataMembers : List (String × Json.Raw) :=
  [("result", .bool false), ("code", .num ⟨false, "404".toList, none, none⟩),
    ("message", .str ("gone".toList.map .char)), ("data", .obj [])]

/-- a refusal with the code 404 and empty data is not understood -/
theorem refusal_not_understood :
    Api.sample.response? (fun _ => .ok .emptyData) "bkci__gone" = some .emptyData ∧
    Response.emptyData.Refuses Response.emptyDataMembers 404 ∧
    Api.sample.answer (fun _ => .ok .emptyData) "bkci__gone"
      = .error (.network (.invalidResponse "http://h/get_space_detail/"
          "error decoding response body")) := by
  have hrefuses : Response.emptyData.Refuses Response.emptyDataMembers 404 :=
    { status := ⟨by decide, by decide⟩
      body := ⟨_, Json.Raw.parse?_eq_some_iff.1 (by rfl), by rfl⟩
      once := by decide
      result := by simp [Response.emptyDataMembers]
      coded := ⟨_, .tail _ (.head _), ⟨⟨_, rfl, rfl, rfl, by rfl, nofun⟩, by decide⟩⟩ }
  have hno : ¬Json.Raw.FitsReply Response.emptyDataMembers := fun h => by
    rcases h.data (.obj []) (by simp [Response.emptyDataMembers]) with hnull | ⟨d, es, hlists, hb, -⟩
    · cases hnull
    · obtain ⟨w, hw, -⟩ := hb
      rcases hlists with ⟨hes, -⟩ | ⟨xs, hxs, -⟩
      · cases hes
        cases hw
      · cases hxs
  have hresponse := Api.response?_sample "bkci__gone" (by decide) .emptyData
  exact ⟨hresponse, hrefuses, (Api.answer_of_refuses hresponse hrefuses).invalid hno⟩

end Linkage
