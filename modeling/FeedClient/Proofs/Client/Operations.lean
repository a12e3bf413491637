import FeedClient.Proofs.Client.FilterOrder
import FeedClient.Proofs.Exchange.Calls

/-!
# Operations

A client queries feeds, with the answers consumed in one way or another, and
writes posts. An operation is prepared without the network, and once it is, the
call for its request decides what comes of it and what the client remembers.
-/
namespace FeedClient

/-- How the answers to a query are consumed. -/
inductive Shape where
  | all
  | first
  | only
  | onlyIfAny
  deriving DecidableEq, Repr

/-- The answers that are left of some. -/
def Shape.take (answers : List FeedAnswer) : Shape → Except ClientError (List FeedAnswer)
  | .all => .ok answers
  | .first => .ok (answers.take 1)
  | .only => (onlyAnswer answers).map fun a => [a]
  | .onlyIfAny => (onlyAnswer? answers).map Option.toList

/-- The answer to a query is left, however it is consumed. -/
theorem Shape.take_singleton (shape : Shape) (a : FeedAnswer) : shape.take [a] = .ok [a] := by
  cases shape <;> rfl

/-- A body is read as a receipt, or it is malformed. -/
theorem PostReceipt.ofText_outcome (body : String) :
    (∃ receipt, ofText body = .ok receipt) ∨ ofText body = .error .malformedResponse := by
  rw [ofText]
  split
  · exact .inl ⟨_, rfl⟩
  · cases Json.readText? readJson body with
    | none => exact .inr rfl
    | some receipt => exact .inl ⟨_, rfl⟩

/-- What a client is asked to do. -/
inductive Operation where
  | feeds (q : FeedQuery) (shape : Shape)
  | post (d : PostDraft)

/-- What a client answers. -/
inductive Answer where
  | feeds (answers : List FeedAnswer)
  | posted (receipt : PostReceipt)

namespace EntityKind

/-- A request for feeds asks for one answer, and its parameters have inputs. -/
theorem exists_inputs_of_request {baseUrl : String} {params : Parameters} {r : Request}
    (h : feed.request baseUrl params = .ok r) :
    r.streaming = false ∧ ∃ i, FeedInputs.ofParameters params = .ok i := by
  have hv := validate_of_request h
  obtain ⟨i, hi, -⟩ := exists_inputs_of_validate hv
  rw [feed_request_of_validate baseUrl hv hi] at h
  cases h
  exact ⟨rfl, i, hi⟩

end EntityKind

namespace Client

variable {c : Client} {op : Operation} {d : Draft} {course : Course}

/-- Performs an operation; its outcome, and the client afterwards. -/
def perform (c : Client) (op : Operation) (course : Course) : Outcome Answer × Client :=
  match op with
  | .feeds q shape =>
    let p := c.feeds q course
    (p.1.andThen fun answers => (shape.take answers).map .feeds, p.2)
  | .post d =>
    let p := c.post d course
    (p.1.andThen fun receipt => .ok (.posted receipt), p.2)

/-- A stage before the signer fails. A filter is evaluated, its parameters are read out of it and a
request is built from them; an account is looked up before the text of its post is. -/
inductive Refuses (c : Client) : Operation → ClientError → Prop where
  | unevaluated {q : FeedQuery} {p : Predicate} {err : QueryError} (shape : Shape)
      (hq : q.filter = some p) (he : p.fold q.captures = .error err) :
      Refuses c (.feeds q shape) (.query err)
  | unextracted {q : FeedQuery} {p folded : Predicate} {err : QueryError} (shape : Shape)
      (hq : q.filter = some p) (hp : p.fold q.captures = .ok folded)
      (he : EntityKind.feed.extractor.extract folded = .error err) :
      Refuses c (.feeds q shape) (.query err)
  | unbuilt {q : FeedQuery} {params : Parameters} {err : RequestError} (shape : Shape)
      (hp : EntityKind.feed.parameters q.filter q.captures = .ok params)
      (he : EntityKind.feed.request c.config.baseUrl params = .error err) :
      Refuses c (.feeds q shape) (.request err)
  | signedOut (d : PostDraft) (hdid : c.channel.signer.did = none) :
      Refuses c (.post d) (.request (.signing "no signed-in session to post as"))
  | blank {d : PostDraft} {did : String} (hdid : c.channel.signer.did = some did)
      (ht : Text.isBlank d.text = true) : Refuses c (.post d) (.request (.missingParameter "text"))

/-- The stages before the signer succeed and come to a request. -/
inductive Prepares (c : Client) : Operation → Draft → Prop where
  | feeds {q : FeedQuery} {params : Parameters} {r : Request} (shape : Shape)
      (hp : EntityKind.feed.parameters q.filter q.captures = .ok params)
      (hr : EntityKind.feed.request c.config.baseUrl params = .ok r) :
      Prepares c (.feeds q shape) r.draft
  | post {d : PostDraft} {did : String} {body : RecordCreation} (hdid : c.channel.signer.did = some did)
      (hb : RecordCreation.ofDraft d did = .ok body) :
      Prepares c (.post d) (.ofJson c.postUrl body.toJson)

/-- The body of a success is mapped to an answer; the inputs of a query are part of it. -/
inductive Maps (c : Client) : Operation → String → Except ClientError Answer → Prop where
  | page {q : FeedQuery} {params : Parameters} {i : FeedInputs} {text : String} {page : FeedPage}
      (shape : Shape) (hp : EntityKind.feed.parameters q.filter q.captures = .ok params)
      (hi : FeedInputs.ofParameters params = .ok i) (h : FeedPage.ofText? text = some page) :
      Maps c (.feeds q shape) text (.ok (.feeds [⟨i, page⟩]))
  | malformedPage {text : String} (q : FeedQuery) (shape : Shape) (h : FeedPage.ofText? text = none) :
      Maps c (.feeds q shape) text (.error (.request .malformedResponse))
  | receipt {text : String} {receipt : PostReceipt} (d : PostDraft)
      (h : PostReceipt.ofText text = .ok receipt) : Maps c (.post d) text (.ok (.posted receipt))
  | malformedReceipt {text : String} (d : PostDraft)
      (h : PostReceipt.ofText text = .error .malformedResponse) :
      Maps c (.post d) text (.error (.request .malformedResponse))

theorem plan_eq_ok_iff {q : FeedQuery} {r : Request} {i : FeedInputs} :
    c.plan q = .ok (r, i) ↔ ∃ params, EntityKind.feed.parameters q.filter q.captures = .ok params ∧
      EntityKind.feed.request c.config.baseUrl params = .ok r ∧
      FeedInputs.ofParameters params = .ok i := by
  unfold plan
  cases EntityKind.feed.parameters q.filter q.captures with
  | error err => simp [asClientError, bind, Except.bind]
  | ok params =>
      cases hr : EntityKind.feed.request c.config.baseUrl params with
      | error err => simp [asClientError, bind, Except.bind, hr]
      | ok request =>
          cases hi : FeedInputs.ofParameters params <;>
            simp [asClientError, bind, Except.bind, pure, Except.pure, hr, hi]

/-- What is planned asks for one answer. -/
theorem query_of_plan {q : FeedQuery} {r : Request} {i : FeedInputs} (h : c.plan q = .ok (r, i))
    (course : Course) : c.channel.query r course = c.channel.fetch r.draft course := by
  obtain ⟨params, -, hr, -⟩ := plan_eq_ok_iff.mp h
  exact Channel.query_of_not_streaming (EntityKind.exists_inputs_of_request hr).1 course

theorem prepares_or_refuses (c : Client) (op : Operation) :
    (∃ d, c.Prepares op d) ∨ ∃ err, c.Refuses op err := by
  cases op with
  | feeds q shape =>
      cases hp : EntityKind.feed.parameters q.filter q.captures with
      | ok params =>
          cases hr : EntityKind.feed.request c.config.baseUrl params with
          | ok r => exact .inl ⟨_, .feeds shape hp hr⟩
          | error err => exact .inr ⟨_, .unbuilt shape hp hr⟩
      | error err =>
          cases hq : q.filter with
          | none => rw [hq] at hp; cases hp
          | some p =>
              simp only [hq, EntityKind.parameters] at hp
              cases hfold : p.fold q.captures with
              | error err => exact .inr ⟨_, .unevaluated shape hq hfold⟩
              | ok folded =>
                  rw [hfold] at hp
                  exact .inr ⟨_, .unextracted shape hq hfold hp⟩
  | post d =>
      cases hdid : c.channel.signer.did with
      | none => exact .inr ⟨_, .signedOut d hdid⟩
      | some did =>
          cases ht : Text.isBlank d.text with
          | true => exact .inr ⟨_, .blank hdid ht⟩
          | false => exact .inl ⟨_, .post hdid (by rw [RecordCreation.ofDraft, ht]; rfl)⟩

/-- An operation that is refused fails on the spot. -/
theorem perform_of_refuses {err : ClientError} (h : c.Refuses op err) (course : Course) :
    c.perform op course = (.refused err, c) := by
  have hfeeds : ∀ q shape err, c.plan q = .error err →
      c.perform (.feeds q shape) course = (.refused err, c) := fun q shape err hplan => by
    rw [perform, feeds, hplan]
    rfl
  have hpost : ∀ d err, c.postBody d = .error err →
      c.perform (.post d) course = (.refused (.request err), c) := fun d err hbody => by
    rw [perform, post, hbody]
    rfl
  cases h with
  | unevaluated shape hq he =>
      refine hfeeds _ shape _ ?_
      simp only [plan, EntityKind.parameters, hq, he, asClientError, bind, Except.bind]
  | unextracted shape hq hp he =>
      refine hfeeds _ shape _ ?_
      unfold EntityKind.extractor at he
      simp only [plan, EntityKind.parameters, hq, hp, he, asClientError, bind, Except.bind]
  | unbuilt shape hp he =>
      refine hfeeds _ shape _ ?_
      simp only [plan, hp, he, asClientError, bind, Except.bind]
  | signedOut d hdid => exact hpost d _ (by rw [postBody, hdid])
  | blank hdid ht => exact hpost _ _ (by rw [postBody, hdid]; exact if_pos ht)

/-- What a body of a call is read as, and what is left of it then. -/
theorem outcome_andThen {α β : Type} (e : Exchange String) (read : String → Except RequestError α)
    (f : α → Except ClientError β) :
    (outcome e read).andThen f =
      ⟨(asClientError .request e.result).bind fun text => (asClientError .request (read text)).bind f,
        e.signed, e.sent⟩ := by
  rw [outcome, Outcome.andThen]
  cases e.result <;> rfl

/-- An operation that is prepared is a call for its request, whose body is mapped. -/
theorem perform_of_prepares (h : c.Prepares op d) (course : Course) :
    ∃ read : String → Except ClientError Answer, (∀ text, c.Maps op text (read text)) ∧
      c.perform op course =
        (⟨(asClientError .request (c.channel.fetch d course).result).bind read,
          (c.channel.fetch d course).signed, (c.channel.fetch d course).sent⟩,
          c.after (c.channel.fetch d course)) := by
  cases h with
  | @feeds q params r shape hp hr =>
      obtain ⟨-, i, hi⟩ := EntityKind.exists_inputs_of_request hr
      have hplan : c.plan q = .ok (r, i) := plan_eq_ok_iff.mpr ⟨params, hp, hr, hi⟩
      refine ⟨fun text => (asClientError .request (FeedAnswer.ofBody i text)).bind fun answers =>
        (shape.take answers).map .feeds, fun text => ?_, ?_⟩
      · cases hpage : FeedPage.ofText? text with
        | none =>
            simp only [FeedAnswer.ofBody, hpage]
            exact .malformedPage q shape hpage
        | some page =>
            simp only [FeedAnswer.ofBody, hpage, asClientError, Except.bind, Shape.take_singleton]
            exact .page shape hp hi hpage
      · rw [perform, feeds, hplan]
        simp only [query_of_plan hplan, outcome_andThen]
  | @post d did body hdid hb =>
      have hbody : c.postBody d = .ok body := by rw [postBody, hdid]; exact hb
      have hfetch : c.channel.postJson c.postUrl body.toJson course =
          c.channel.fetch (.ofJson c.postUrl body.toJson) course := rfl
      refine ⟨fun text => (asClientError .request (PostReceipt.ofText text)).bind fun receipt =>
        .ok (.posted receipt), fun text => ?_, ?_⟩
      · rcases PostReceipt.ofText_outcome text with ⟨receipt, hr⟩ | he
        · simp only [hr]
          exact .receipt d hr
        · simp only [he]
          exact .malformedReceipt d he
      · rw [perform, post, hbody]
        simp only [hfetch, outcome_andThen]

theorem Refuses.not_prepares {err : ClientError} (h : c.Refuses op err) : ¬c.Prepares op d := by
  intro hd
  -- What an operation signs tells the two apart, whatever the course of its call.
  obtain ⟨read, -, hperform⟩ := perform_of_prepares hd ⟨true, []⟩
  have hsigned := (c.channel.traces_call d ⟨true, []⟩ c.channel.bodyOf).signed
  rw [perform_of_refuses h] at hperform
  have hnone : [] = (c.channel.fetch d ⟨true, []⟩).signed := congrArg (·.1.signed) hperform
  exact absurd (hnone.trans hsigned) (List.cons_ne_nil _ _).symm

theorem Prepares.unique {e : Draft} (hd : c.Prepares op d) (he : c.Prepares op e) : d = e := by
  cases hd with
  | feeds shape hp hr =>
      cases he with
      | feeds _ hq hs =>
          obtain rfl := Except.ok.inj (hp.symm.trans hq)
          obtain rfl := Except.ok.inj (hr.symm.trans hs)
          rfl
  | post hdid hb =>
      cases he with
      | post hother hbody =>
          obtain rfl := Option.some.inj (hdid.symm.trans hother)
          obtain rfl := Except.ok.inj (hb.symm.trans hbody)
          rfl

/-- What is prepared does not depend on what a client remembers. -/
theorem Prepares.congr {c' : Client} (h : c.Prepares op d) (hconfig : c'.config = c.config)
    (hsigner : c'.channel.signer = c.channel.signer) : c'.Prepares op d := by
  cases h with
  | feeds shape hp hr => exact .feeds shape hp (hconfig ▸ hr)
  | post hdid hb =>
      have hurl : c.postUrl = c'.postUrl := by rw [postUrl, postUrl, hconfig]
      rw [hurl]
      exact .post (hsigner ▸ hdid) hb

end Client

end FeedClient
