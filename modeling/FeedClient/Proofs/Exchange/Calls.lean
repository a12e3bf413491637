import FeedClient.Proofs.Exchange.KeptResponses
import FeedClient.Proofs.Exchange.Waiting

/-!
# Calls

A call for one answer goes through its stages in order: the request is signed and
sent, a response begins, its body is read, and its status says whether that is an
answer or a failure. What comes of the call, and what is signed and sent on the
way, is said once here for every stage that can end it.
-/
namespace FeedClient

/-- A request for one answer, before it is signed. -/
def Request.draft (r : Request) : Draft := ⟨r.method, r.url, r.parameters, r.method = .post, none⟩

theorem Request.draft_url (r : Request) : r.draft.url = r.url := rfl

/-- A request for a stream, before it is signed. -/
def Request.streamDraft (r : Request) : Draft := ⟨r.method, r.url, r.parameters, false, none⟩

/-- A request that posts a JSON value, before it is signed. -/
def Draft.ofJson (url : String) (body : Json) : Draft := ⟨.post, url, [], true, some body⟩

/-- A call for one answer, as a channel is asked for it. -/
inductive Submission where
  | query (r : Request)
  | json (url : String) (body : Json)

/-- The request of a call, unless it is one for a stream. -/
def Submission.draft : Submission → Except RequestError Draft
  | .query r => if r.streaming then .error (.settings (.streaming r.endpoint)) else .ok r.draft
  | .json url body => .ok (.ofJson url body)

theorem Status.isFailure_eq_false_iff {status : Nat} : isFailure status = false ↔ status < 400 := by
  rw [isFailure, decide_eq_false_iff_not, Nat.not_le, firstFailure]

namespace ResponseHead

theorem successBody_of_error {h : ResponseHead} {millis : UInt64} {err : RequestError}
    (he : h.body millis = .error err) : h.successBody millis = .error err := by
  rw [successBody, he]

theorem successBody_of_completes {h : ResponseHead} {millis : UInt64} {text : String}
    (ht : h.Completes text) :
    h.successBody millis = if Status.isFailure h.status then .error (h.failure text) else .ok text := by
  rw [successBody, body_eq_ok_iff.mpr ht]

end ResponseHead

/-- The signal fires while the call waits, for a response or for the body of one that has begun,
whatever else there is to find at that moment. -/
inductive Course.Cancels (course : Course) : Option ResponseHead → Prop where
  | waiting {m : Moment} {rest : List Moment}
      (h : Reaches Moment.KeepsWaiting course.moments m rest) (hc : m.cancelled = true) :
      Cancels course none
  | reading {head : ResponseHead} {m : Moment} {rest : List Moment} (hb : head.Begins course.moments)
      (h : Reaches Moment.KeepsReading head.following m rest) (hc : m.cancelled = true) :
      Cancels course (some head)

namespace Channel

variable {c : Channel} {d : Draft} {course : Course}

/-- The request is signed, with this authorization value, and sent. -/
structure Sends (c : Channel) (d : Draft) (course : Course) (authorization : String) : Prop where
  signed : c.signer.sign d.method d.url d.parameters = .ok authorization
  uncancelled : course.cancelledBefore = false
  sendable : d.isSendable authorization = true

/-- A request is sent, or the signer fails, the signal has fired or the request cannot be sent. -/
theorem sends_or_stops (c : Channel) (d : Draft) (course : Course) :
    (∃ err, c.signer.sign d.method d.url d.parameters = .error err) ∨
    (∃ authorization, c.signer.sign d.method d.url d.parameters = .ok authorization ∧
      course.cancelledBefore = true) ∨
    (∃ authorization, c.signer.sign d.method d.url d.parameters = .ok authorization ∧
      course.cancelledBefore = false ∧ d.isSendable authorization = false) ∨
    ∃ authorization, c.Sends d course authorization := by
  cases hsign : c.signer.sign d.method d.url d.parameters with
  | error err => exact .inl ⟨err, rfl⟩
  | ok authorization =>
      cases hc : course.cancelledBefore with
      | true => exact .inr (.inl ⟨authorization, rfl, rfl⟩)
      | false =>
          cases hs : d.isSendable authorization with
          | false => exact .inr (.inr (.inl ⟨authorization, rfl, rfl, hs⟩))
          | true => exact .inr (.inr (.inr ⟨authorization, hsign, hc, hs⟩))

section Stages

variable {α : Type} {next : ResponseHead → Except RequestError α × List String}
  {authorization : String} {err : RequestError}

theorem call_of_unsigned (h : c.signer.sign d.method d.url d.parameters = .error err) :
    c.call d course next = ⟨.error err, [d.signing], [], none, []⟩ := by
  rw [call, h]

theorem call_of_abandoned (h : c.signer.sign d.method d.url d.parameters = .ok authorization)
    (hc : course.cancelledBefore = true) :
    c.call d course next = ⟨.error .cancelled, [d.signing], [], none, []⟩ := by
  simp [call, h, hc]

theorem call_of_unsendable (h : c.signer.sign d.method d.url d.parameters = .ok authorization)
    (hc : course.cancelledBefore = false) (hs : d.isSendable authorization = false) :
    c.call d course next = ⟨.error (.settings .unsendable), [d.signing], [], none, []⟩ := by
  simp [call, h, hc, hs]

theorem Sends.call_of_unanswered (h : c.Sends d course authorization)
    (he : awaitHead c.settings.timeout course.moments = .error err) :
    c.call d course next = ⟨.error err, [d.signing], [c.dispatch d authorization], none, []⟩ := by
  simp [call, h.signed, h.uncancelled, h.sendable, he]

theorem Sends.call_of_begins (h : c.Sends d course authorization) {head : ResponseHead}
    (hb : head.Begins course.moments) :
    c.call d course next = ⟨(next head).1, [d.signing], [c.dispatch d authorization],
      some (.ofHead d.url head.status head.headers), (next head).2⟩ := by
  simp [call, h.signed, h.uncancelled, h.sendable, awaitHead_eq_ok_iff.mpr hb]

/-- What a call signs and sends for a request. -/
structure Traces (c : Channel) (d : Draft) (signed : List Signing) (sent : List Dispatch) : Prop where
  /-- The signer is asked once. -/
  signed : signed = [⟨d.method, d.url, d.parameters⟩]
  /-- Without its value nothing is sent. -/
  unsigned : ∀ err, c.signer.sign d.method d.url d.parameters = .error err → sent = []
  /-- Under its value the request that it was asked for is sent, once or not at all. -/
  sent : ∀ authorization, c.signer.sign d.method d.url d.parameters = .ok authorization →
    sent = [] ∨ ∃ x, sent = [x] ∧ x.method = d.method ∧ x.url = d.url ∧ x.body = d.body ∧
      x.authorization = authorization

theorem traces_call (c : Channel) (d : Draft) (course : Course)
    (next : ResponseHead → Except RequestError α × List String) :
    c.Traces d (c.call d course next).signed (c.call d course next).sent := by
  rcases c.sends_or_stops d course with ⟨err, h⟩ | ⟨_, h, hc⟩ | ⟨_, h, hc, hs⟩ | ⟨authorization, h⟩
  · rw [call_of_unsigned h]
    exact ⟨rfl, fun _ _ => rfl, fun _ _ => .inl rfl⟩
  · rw [call_of_abandoned h hc]
    exact ⟨rfl, fun _ _ => rfl, fun _ _ => .inl rfl⟩
  · rw [call_of_unsendable h hc hs]
    exact ⟨rfl, fun _ _ => rfl, fun _ _ => .inl rfl⟩
  · have htrace : (c.call d course next).signed = [d.signing] ∧
        (c.call d course next).sent = [c.dispatch d authorization] := by
      cases hwait : awaitHead c.settings.timeout course.moments with
      | error err => rw [h.call_of_unanswered hwait]; exact ⟨rfl, rfl⟩
      | ok head => rw [h.call_of_begins (awaitHead_eq_ok_iff.mp hwait)]; exact ⟨rfl, rfl⟩
    refine ⟨htrace.1, fun err herr => ?_, fun a ha => .inr ?_⟩
    · rw [h.signed] at herr; cases herr
    · exact ⟨_, htrace.2, rfl, rfl, rfl, Except.ok.inj (h.signed.symm.trans ha)⟩

end Stages

/-- A call for one answer. -/
def fetch (c : Channel) (d : Draft) (course : Course) : Exchange String := c.call d course c.bodyOf

section Modes

variable {r : Request}

theorem query_of_streaming (h : r.streaming = true) (course : Course) :
    c.query r course = .refused (.settings (.streaming r.endpoint)) := by
  rw [query, if_pos h]

theorem query_of_not_streaming (h : r.streaming = false) (course : Course) :
    c.query r course = c.fetch r.draft course := by
  rw [query, h, if_neg (by decide)]
  rfl

theorem stream_of_not_streaming (h : r.streaming = false) (course : Course) (listener : Listener) :
    c.stream r course listener = .refused (.settings (.notStreaming r.endpoint)) := by
  rw [stream, h, if_pos (by decide)]

theorem stream_of_streaming (h : r.streaming = true) (course : Course) (listener : Listener) :
    c.stream r course listener = c.call r.streamDraft course (c.messagesOf listener) := by
  rw [stream, h, if_neg (by decide)]
  rfl

def submit (c : Channel) (s : Submission) (course : Course) : Exchange String :=
  match s with
  | .query r => c.query r course
  | .json url body => c.postJson url body course

theorem submit_of_error {s : Submission} {err : RequestError} (h : s.draft = .error err)
    (course : Course) : c.submit s course = .refused err := by
  cases s with
  | query r =>
      rw [Submission.draft] at h
      cases hr : r.streaming with
      | true =>
          rw [if_pos hr] at h
          cases h
          exact query_of_streaming hr course
      | false =>
          rw [hr, if_neg (by decide)] at h
          cases h
  | json url body => cases h

theorem submit_of_draft {s : Submission} (h : s.draft = .ok d) (course : Course) :
    c.submit s course = c.fetch d course := by
  cases s with
  | query r =>
      rw [Submission.draft] at h
      cases hr : r.streaming with
      | true =>
          rw [if_pos hr] at h
          cases h
      | false =>
          rw [hr, if_neg (by decide)] at h
          cases h
          exact query_of_not_streaming hr course
  | json url body =>
      cases h
      rfl

end Modes

/-- What comes of a call for one answer, by the stage that ends it. -/
inductive Fetches (c : Channel) (d : Draft) (course : Course) : Exchange String → Prop where
  | unsigned {err : RequestError} (h : c.signer.sign d.method d.url d.parameters = .error err) :
      Fetches c d course ⟨.error err, [d.signing], [], none, []⟩
  | abandoned {authorization : String}
      (h : c.signer.sign d.method d.url d.parameters = .ok authorization)
      (hc : course.cancelledBefore = true) :
      Fetches c d course ⟨.error .cancelled, [d.signing], [], none, []⟩
  | unsendable {authorization : String}
      (h : c.signer.sign d.method d.url d.parameters = .ok authorization)
      (hc : course.cancelledBefore = false) (hs : d.isSendable authorization = false) :
      Fetches c d course ⟨.error (.settings .unsendable), [d.signing], [], none, []⟩
  | unanswered {authorization : String} {err : RequestError} (h : c.Sends d course authorization)
      (he : awaitHead c.settings.timeout course.moments = .error err) :
      Fetches c d course ⟨.error err, [d.signing], [c.dispatch d authorization], none, []⟩
  | unread {authorization : String} {head : ResponseHead} {err : RequestError}
      (h : c.Sends d course authorization) (hb : head.Begins course.moments)
      (he : head.body c.settings.bodyTimeout = .error err) :
      Fetches c d course ⟨.error err, [d.signing], [c.dispatch d authorization],
        some (.ofHead d.url head.status head.headers), []⟩
  | failed {authorization : String} {head : ResponseHead} {text : String}
      (h : c.Sends d course authorization) (hb : head.Begins course.moments)
      (ht : head.Completes text) (hf : Status.isFailure head.status = true) :
      Fetches c d course ⟨.error (head.failure text), [d.signing], [c.dispatch d authorization],
        some (.ofHead d.url head.status head.headers), []⟩
  | read {authorization : String} {head : ResponseHead} {text : String}
      (h : c.Sends d course authorization) (hb : head.Begins course.moments)
      (ht : head.Completes text) (hf : Status.isFailure head.status = false) :
      Fetches c d course ⟨.ok text, [d.signing], [c.dispatch d authorization],
        some (.ofHead d.url head.status head.headers), []⟩

theorem Fetches.eq_fetch {e : Exchange String} (h : c.Fetches d course e) : e = c.fetch d course := by
  rw [fetch]
  cases h with
  | unsigned h => exact (call_of_unsigned h).symm
  | abandoned h hc => exact (call_of_abandoned h hc).symm
  | unsendable h hc hs => exact (call_of_unsendable h hc hs).symm
  | unanswered h he => exact (h.call_of_unanswered he).symm
  | unread h hb he => rw [h.call_of_begins hb, bodyOf, ResponseHead.successBody_of_error he]
  | failed h hb ht hf =>
      rw [h.call_of_begins hb, bodyOf, ResponseHead.successBody_of_completes ht, if_pos hf]
  | read h hb ht hf =>
      rw [h.call_of_begins hb, bodyOf, ResponseHead.successBody_of_completes ht, hf, if_neg (by decide)]

/-- One stage or another ends a call. -/
theorem exists_fetches (c : Channel) (d : Draft) (course : Course) : ∃ e, c.Fetches d course e := by
  rcases c.sends_or_stops d course with ⟨err, h⟩ | ⟨_, h, hc⟩ | ⟨_, h, hc, hs⟩ | ⟨authorization, h⟩
  · exact ⟨_, .unsigned h⟩
  · exact ⟨_, .abandoned h hc⟩
  · exact ⟨_, .unsendable h hc hs⟩
  · cases hwait : awaitHead c.settings.timeout course.moments with
    | error err => exact ⟨_, .unanswered h hwait⟩
    | ok head =>
        have hb : head.Begins course.moments := awaitHead_eq_ok_iff.mp hwait
        cases hbody : head.body c.settings.bodyTimeout with
        | error err => exact ⟨_, .unread h hb hbody⟩
        | ok text =>
            have ht : head.Completes text := ResponseHead.body_eq_ok_iff.mp hbody
            cases hf : Status.isFailure head.status with
            | true => exact ⟨_, .failed h hb ht hf⟩
            | false => exact ⟨_, .read h hb ht hf⟩

theorem fetches_fetch (c : Channel) (d : Draft) (course : Course) :
    c.Fetches d course (c.fetch d course) := by
  obtain ⟨e, he⟩ := exists_fetches c d course
  exact he.eq_fetch ▸ he

theorem fetches_iff {e : Exchange String} : c.Fetches d course e ↔ e = c.fetch d course :=
  ⟨Fetches.eq_fetch, fun h => h ▸ fetches_fetch c d course⟩

/-- The request is sent and a response begins. -/
def Answers (c : Channel) (d : Draft) (course : Course) (head : ResponseHead) : Prop :=
  (∃ authorization, c.Sends d course authorization) ∧ head.Begins course.moments

/-- Whether a response begins does not depend on what a channel remembers. -/
theorem Answers.congr {c' : Channel} {head : ResponseHead} (h : c.Answers d course head)
    (hsigner : c'.signer = c.signer) : c'.Answers d course head := by
  obtain ⟨⟨authorization, hs⟩, hb⟩ := h
  exact ⟨⟨authorization, hsigner ▸ hs.signed, hs.uncancelled, hs.sendable⟩, hb⟩

theorem fetch_response_eq_some_iff {m : ResponseMeta} :
    (c.fetch d course).response = some m ↔
      ∃ head, c.Answers d course head ∧ m.Describes d.url head.status head.headers := by
  simp only [ResponseMeta.describes_iff]
  constructor
  · intro hm
    have h := fetches_fetch c d course
    generalize c.fetch d course = e at h hm
    cases h with
    | unsigned => cases hm
    | abandoned => cases hm
    | unsendable => cases hm
    | unanswered => cases hm
    | unread h hb => exact ⟨_, ⟨⟨_, h⟩, hb⟩, (Option.some.inj hm).symm⟩
    | failed h hb => exact ⟨_, ⟨⟨_, h⟩, hb⟩, (Option.some.inj hm).symm⟩
    | read h hb => exact ⟨_, ⟨⟨_, h⟩, hb⟩, (Option.some.inj hm).symm⟩
  · rintro ⟨head, ⟨⟨authorization, h⟩, hb⟩, rfl⟩
    rw [fetch, h.call_of_begins hb]

theorem fetch_result_eq_ok_iff {text : String} :
    (c.fetch d course).result = .ok text ↔
      ∃ head, c.Answers d course head ∧ head.status < 400 ∧ head.Completes text := by
  simp only [← Status.isFailure_eq_false_iff]
  constructor
  · intro hr
    have h := fetches_fetch c d course
    generalize c.fetch d course = e at h hr
    cases h with
    | unsigned => cases hr
    | abandoned => cases hr
    | unsendable => cases hr
    | unanswered => cases hr
    | unread => cases hr
    | failed => cases hr
    | read h hb ht hf => exact ⟨_, ⟨⟨_, h⟩, hb⟩, hf, Except.ok.inj hr ▸ ht⟩
  · rintro ⟨head, ⟨⟨authorization, h⟩, hb⟩, hf, ht⟩
    rw [← (Fetches.read h hb ht hf).eq_fetch]

/-- A signal that fires while a call waits decides what comes of it. -/
theorem Sends.fetch_of_cancels {authorization : String} (h : c.Sends d course authorization)
    {begun : Option ResponseHead} (hc : course.Cancels begun) :
    c.fetch d course = ⟨.error .cancelled, [d.signing], [c.dispatch d authorization],
      begun.map fun head => .ofHead d.url head.status head.headers, []⟩ := by
  cases hc with
  | waiting hm hc =>
      have he : awaitHead c.settings.timeout course.moments = .error .cancelled :=
        awaitHead_eq_cancelled_iff.mpr ⟨_, _, hm, hc⟩
      exact (Fetches.unanswered h he).eq_fetch.symm
  | @reading head _ _ hb hm hc =>
      have he : head.body c.settings.bodyTimeout = .error .cancelled :=
        ResponseHead.body_eq_cancelled_iff.mpr ⟨_, _, hm, hc⟩
      exact (Fetches.unread h hb he).eq_fetch.symm

/-- Nothing but a signal makes a signed call say that it was cancelled. -/
theorem cancels_of_fetch {authorization : String}
    (hsign : c.signer.sign d.method d.url d.parameters = .ok authorization)
    (hr : (c.fetch d course).result = .error .cancelled) :
    course.cancelledBefore = true ∨ ∃ begun, course.Cancels begun := by
  have h := fetches_fetch c d course
  generalize c.fetch d course = e at h hr
  cases h with
  | unsigned h => rw [hsign] at h; cases h
  | abandoned _ hc => exact .inl hc
  | unsendable => cases hr
  | unanswered _ he =>
      rw [Except.error.inj hr] at he
      obtain ⟨m, rest, hm, hc⟩ := awaitHead_eq_cancelled_iff.mp he
      exact .inr ⟨none, .waiting hm hc⟩
  | @unread _ head _ _ hb he =>
      rw [Except.error.inj hr] at he
      obtain ⟨m, rest, hm, hc⟩ := ResponseHead.body_eq_cancelled_iff.mp he
      exact .inr ⟨some head, .reading hb hm hc⟩
  | failed => cases hr
  | read => cases hr

end Channel

end FeedClient
