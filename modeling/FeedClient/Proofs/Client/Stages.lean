import FeedClient.Proofs.Client.Operations

/-!
# The stages of an operation

A query is evaluated, its parameters are extracted, a request is built, signed and
sent, the response is classified and its body mapped; a post looks up its account
and checks its text before it is signed and sent. The first stage that fails decides
the outcome and nothing behind it happens, so that an operation signs and sends its
request once at most.
-/
namespace FeedClient

namespace Client

variable {c : Client} {op : Operation} {course : Course}

/-- What comes of an operation, by the stage that ends it: one before the signer, one of the call, or
the mapping of its body. -/
inductive Performs (c : Client) (op : Operation) (course : Course) : Outcome Answer → Prop where
  | refused {err : ClientError} (h : c.Refuses op err) : Performs c op course ⟨.error err, [], []⟩
  | unanswered {d : Draft} {e : Exchange String} {err : RequestError} (h : c.Prepares op d)
      (hf : c.channel.Fetches d course e) (he : e.result = .error err) :
      Performs c op course ⟨.error (.request err), e.signed, e.sent⟩
  | mapped {d : Draft} {e : Exchange String} {text : String} {result : Except ClientError Answer}
      (h : c.Prepares op d) (hf : c.channel.Fetches d course e) (ht : e.result = .ok text)
      (hm : c.Maps op text result) : Performs c op course ⟨result, e.signed, e.sent⟩

theorem Maps.unique {text : String} {r s : Except ClientError Answer} (hr : c.Maps op text r)
    (hs : c.Maps op text s) : r = s := by
  cases hr with
  | page shape hp hi hpage =>
      cases hs with
      | page _ hq hj hother =>
          obtain rfl := Except.ok.inj (hp.symm.trans hq)
          obtain rfl := Except.ok.inj (hi.symm.trans hj)
          obtain rfl := Option.some.inj (hpage.symm.trans hother)
          rfl
      | malformedPage _ _ hnone => rw [hpage] at hnone; cases hnone
  | malformedPage q shape hnone =>
      cases hs with
      | page _ _ _ hpage => rw [hpage] at hnone; cases hnone
      | malformedPage => rfl
  | receipt d hr =>
      cases hs with
      | receipt _ hs => rw [Except.ok.inj (hr.symm.trans hs)]
      | malformedReceipt _ he => rw [hr] at he; cases he
  | malformedReceipt d he =>
      cases hs with
      | receipt _ hs => rw [hs] at he; cases he
      | malformedReceipt => rfl

theorem performs_iff {o : Outcome Answer} :
    c.Performs op course o ↔ (c.perform op course).1 = o := by
  constructor
  · intro h
    cases h with
    | refused h => rw [perform_of_refuses h]; rfl
    | unanswered h hf he =>
        obtain ⟨read, -, hperform⟩ := perform_of_prepares h course
        rw [hperform, ← hf.eq_fetch, he]
        rfl
    | mapped h hf ht hm =>
        obtain ⟨read, hread, hperform⟩ := perform_of_prepares h course
        rw [hperform, ← hf.eq_fetch, ht, hm.unique (hread _)]
        rfl
  · rintro rfl
    rcases prepares_or_refuses c op with ⟨d, h⟩ | ⟨err, h⟩
    · obtain ⟨read, hread, hperform⟩ := perform_of_prepares h course
      have hf := c.channel.fetches_fetch d course
      rw [hperform]
      cases hresult : (c.channel.fetch d course).result with
      | error err => exact .unanswered h hf hresult
      | ok text => exact .mapped h hf hresult (hread text)
    · rw [perform_of_refuses h]
      exact .refused h

theorem traces_perform {d : Draft} (h : c.Prepares op d) (course : Course) :
    c.channel.Traces d (c.perform op course).1.signed (c.perform op course).1.sent := by
  obtain ⟨read, -, hperform⟩ := perform_of_prepares h course
  rw [hperform]
  exact c.channel.traces_call d course c.channel.bodyOf

/-- The signer is asked exactly if the stages before it succeed. -/
theorem exists_prepares_iff :
    (∃ d, c.Prepares op d) ↔ (c.perform op course).1.signed ≠ [] := by
  constructor
  · rintro ⟨d, hd⟩
    rw [(traces_perform hd course).signed]
    exact List.cons_ne_nil _ _
  · intro hsigned
    rcases prepares_or_refuses c op with hd | ⟨err, h⟩
    · exact hd
    · rw [perform_of_refuses h] at hsigned
      exact absurd rfl hsigned

/-- The stages of an operation run in order, and the first that fails decides its outcome. The signer
is asked, once, exactly if the stages before it succeed, and for the request that is sent then, once at
most and under its value. A call in the mode of another kind of request does not get to the signer. -/
theorem stages_in_order (c : Client) (course : Course) :
    (∀ op o, c.Performs op course o ↔ (c.perform op course).1 = o) ∧
    (∀ op, let o := (c.perform op course).1
      ((∃ d, c.Prepares op d) ↔ o.signed ≠ []) ∧
      (∀ err, c.Refuses op err → c.perform op course = (⟨.error err, [], []⟩, c)) ∧
      ∀ d, c.Prepares op d → c.channel.Traces d o.signed o.sent) ∧
    (∀ s err, s.draft = .error err → c.channel.submit s course = .refused err) ∧
    (∀ s d, s.draft = .ok d → let e := c.channel.submit s course
      (∀ e', c.channel.Fetches d course e' ↔ e' = e) ∧ c.channel.Traces d e.signed e.sent) ∧
    ∀ (r : Request) (listener : Listener), (r.streaming = false →
        c.channel.stream r course listener = .refused (.settings (.notStreaming r.endpoint))) ∧
      (r.streaming = true → let e := c.channel.stream r course listener
        c.channel.Traces r.streamDraft e.signed e.sent) := by
  refine ⟨fun op o => performs_iff, fun op => ⟨exists_prepares_iff, ?_, ?_⟩, ?_, ?_, ?_⟩
  · exact fun err h => perform_of_refuses h course
  · exact fun d h => traces_perform h course
  · exact fun s err h => Channel.submit_of_error h course
  · intro s d h
    rw [Channel.submit_of_draft h]
    exact ⟨fun e => Channel.fetches_iff, c.channel.traces_call d course c.channel.bodyOf⟩
  · intro r listener
    refine ⟨fun hr => Channel.stream_of_not_streaming hr course listener, fun hr => ?_⟩
    rw [Channel.stream_of_streaming hr]
    exact c.channel.traces_call r.streamDraft course (c.channel.messagesOf listener)

/-- A query that is answered with a failure, the same query without a token, one without a filter, and
a request for a stream in the wrong mode. -/
theorem stages_in_order_of_failures :
    let settings : ChannelSettings := ⟨"reader", 1000, 1000, none, false⟩
    let c : Client := ⟨.default, ⟨settings, .constant "token" none false, none⟩, none⟩
    let course : Course := ⟨false, [⟨false, some (.head 401 []), false⟩, ⟨false, some .ended, false⟩]⟩
    let q : FeedQuery := .restrict .start (.and (.field "Type" .eq FeedKind.timeline.toValue)
      (.field "Algorithm" .eq (.text "abc")))
    let url := "https://bsky.social/xrpc/app.bsky.feed.getTimeline?algorithm=abc"
    let o := (c.perform (.feeds q .all) course).1
    let tokenless := ((c.withSigner (.bearer none)).perform (.feeds q .all) course).1
    o.signed = [⟨.get, url, [("algorithm", "abc")]⟩] ∧
      (∃ x, o.sent = [x] ∧ x.url = url ∧ x.authorization = "token") ∧
      tokenless.signed = o.signed ∧ tokenless.sent = [] ∧
      (c.perform (.feeds .start .all) course).1.signed = [] ∧
      c.channel.query ⟨.get, "https://example.com/events", [], true⟩ course =
        .refused (.settings (.streaming "https://example.com/events")) := by
  intro settings c course q url o tokenless
  let r : Request := ⟨.get, "https://bsky.social/xrpc/app.bsky.feed.getTimeline", [("algorithm", "abc")],
    false⟩
  let params := Parameters.ofPairs [("Type", "0"), ("Algorithm", "abc")]
  have hparams : EntityKind.feed.parameters q.filter q.captures = .ok params := rfl
  have hrequest : EntityKind.feed.request "https://bsky.social/" params = .ok r := by decide +kernel
  have hurl : r.url = url := by decide +kernel
  obtain ⟨-, hoperation, hmode, -, -⟩ := stages_in_order c course
  obtain ⟨-, hunsigned, -, -, -⟩ := stages_in_order (c.withSigner (.bearer none)) course
  obtain ⟨-, -, htraces⟩ := hoperation (.feeds q .all)
  obtain ⟨-, -, htokenless⟩ := hunsigned (.feeds q .all)
  obtain ⟨-, hrefused, -⟩ := hoperation (.feeds .start .all)
  have htrace := htraces r.draft (.feeds .all hparams hrequest)
  have hnone := htokenless r.draft (.feeds .all hparams hrequest)
  have hsent : o.sent.length = 1 := by decide +kernel
  have hbearer : (Signer.bearer none).sign r.draft.method r.draft.url r.draft.parameters =
      .error (.signing "no access token in the current session") := rfl
  refine ⟨?_, ?_, hnone.signed.trans htrace.signed.symm, hnone.unsigned _ hbearer, ?_, ?_⟩
  · have hsigned := htrace.signed
    rw [Request.draft_url, hurl] at hsigned
    exact hsigned
  · rcases htrace.sent "token" rfl with hempty | ⟨x, hx, -, hxurl, -, hvalue⟩
    · rw [hempty] at hsent
      cases hsent
    · exact ⟨x, hx, hxurl.trans (r.draft_url.trans hurl), hvalue⟩
  · have hempty : EntityKind.feed.parameters none .empty = .ok .empty := rfl
    rw [hrefused _ (.unbuilt .all hempty rfl)]
  · exact hmode (.query ⟨.get, "https://example.com/events", [], true⟩) _ rfl

end Client

end FeedClient
