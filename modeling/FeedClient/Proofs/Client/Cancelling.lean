import FeedClient.Proofs.Client.Operations
import FeedClient.Proofs.Exchange.Signals

/-!
# Cancelled operations

A signal can fire before a call, while it waits for a response, or while it reads
the body, and at a moment at which there is something else to find as well. In each
case the call says that it was cancelled, unless a stage in front of it failed
first, and it remembers a response exactly if one has begun.
-/
namespace FeedClient

namespace Channel

variable {c : Channel} {d : Draft} {course : Course}

/-- The channel once it remembers a response. -/
def remembering (c : Channel) (m : ResponseMeta) : Channel := { c with lastResponse := some m }

/-- What the signal of a call makes of its result under some cause, of what is sent and of what is
remembered. -/
structure Reports {ε α σ : Type} (c : Channel) (d : Draft) (course : Course)
    (cause : RequestError → ε) (state : σ) (remembering : ResponseMeta → σ)
    (result : Except ε α) (sent : List Dispatch) (after : σ) : Prop where
  /-- Behind a signal that fired before the call nothing is sent and nothing changes. -/
  before : course.cancelledBefore = true → sent = [] ∧ after = state
  /-- Only the signer can fail in front of it. -/
  unsigned : ∀ err, c.signer.sign d.method d.url d.parameters = .error err →
    result = .error (cause err)
  abandoned : ∀ authorization, c.signer.sign d.method d.url d.parameters = .ok authorization →
    course.cancelledBefore = true → result = .error (cause .cancelled)
  /-- While the call waits for a response nothing is remembered. -/
  waiting : ∀ authorization, c.Sends d course authorization → course.Cancels none →
    result = .error (cause .cancelled) ∧ after = state
  /-- While it reads a body, of whatever status, the response is remembered that has begun. -/
  reading : ∀ authorization head, c.Sends d course authorization → course.Cancels (some head) →
    result = .error (cause .cancelled) ∧
      ∃ m, m.Describes d.url head.status head.headers ∧ after = remembering m
  /-- A call whose signal never fires is not cancelled. -/
  only : ∀ authorization, c.signer.sign d.method d.url d.parameters = .ok authorization →
    result = .error (cause .cancelled) → course.cancelledBefore = true ∨ ∃ begun, course.Cancels begun

/-- What is made of a call for one answer reports its signal, if it hands on failures and what there is
to remember of them. -/
theorem reports_of_fetch {ε α σ : Type} {cause : RequestError → ε} {state : σ}
    {remembering : ResponseMeta → σ} {result : Except ε α} {after : σ}
    (hresult : ∀ err, (c.fetch d course).result = .error err → result = .error (cause err))
    (honly : result = .error (cause .cancelled) → (c.fetch d course).result = .error .cancelled)
    (hafter : ∀ err, (c.fetch d course).result = .error err →
      after = ((c.fetch d course).response.map remembering).getD state) :
    c.Reports d course cause state remembering result (c.fetch d course).sent after where
  before := by
    intro hc
    cases hsign : c.signer.sign d.method d.url d.parameters with
    | error err =>
        have hfetch : c.fetch d course = _ := call_of_unsigned hsign
        rw [hfetch] at hafter ⊢
        exact ⟨rfl, hafter err rfl⟩
    | ok authorization =>
        have hfetch : c.fetch d course = _ := call_of_abandoned hsign hc
        rw [hfetch] at hafter ⊢
        exact ⟨rfl, hafter .cancelled rfl⟩
  unsigned := by
    intro err hsign
    have hfetch : c.fetch d course = _ := call_of_unsigned hsign
    exact hresult err (by rw [hfetch])
  abandoned := by
    intro authorization hsign hc
    have hfetch : c.fetch d course = _ := call_of_abandoned hsign hc
    exact hresult .cancelled (by rw [hfetch])
  waiting := by
    intro authorization hs hc
    have hfetch := hs.fetch_of_cancels hc
    rw [hfetch] at hresult hafter
    exact ⟨hresult .cancelled rfl, hafter .cancelled rfl⟩
  reading := by
    intro authorization head hs hc
    have hfetch := hs.fetch_of_cancels hc
    rw [hfetch] at hresult hafter
    exact ⟨hresult .cancelled rfl, _, ResponseMeta.describes_ofHead .., hafter .cancelled rfl⟩
  only := fun authorization hsign hr => cancels_of_fetch hsign (honly hr)

theorem reports_submit {s : Submission} (h : s.draft = .ok d) (course : Course) :
    c.Reports d course id c c.remembering (c.submit s course).result (c.submit s course).sent
      (c.after (c.submit s course)) := by
  rw [submit_of_draft h]
  refine reports_of_fetch (fun err he => he) (fun he => he) fun err _ => ?_
  rw [after]
  cases (c.fetch d course).response <;> rfl

end Channel

namespace Client

variable {c : Client} {op : Operation} {d : Draft}

/-- The client once it remembers a response. -/
def remembering (c : Client) (m : ResponseMeta) : Client :=
  { c with channel := c.channel.remembering m }

theorem Maps.ne_cancelled {text : String} {r : Except ClientError Answer} (h : c.Maps op text r) :
    r ≠ .error (.request .cancelled) := by
  cases h <;> simp

theorem reports_perform (h : c.Prepares op d) (course : Course) :
    let p := c.perform op course
    c.channel.Reports d course .request c c.remembering p.1.result p.1.sent p.2 := by
  intro p
  obtain ⟨read, hread, hperform⟩ := perform_of_prepares h course
  have hp : p = _ := hperform
  rw [hp]
  refine Channel.reports_of_fetch (fun err he => ?_) (fun he => ?_) fun err he => ?_
  · simp only [he]
    rfl
  · cases hresult : (c.channel.fetch d course).result with
    | error err =>
        simp only [hresult] at he
        cases he
        rfl
    | ok text =>
        simp only [hresult] at he
        exact absurd he (hread text).ne_cancelled
  · simp only [after, he]
    rw [Channel.after]
    cases (c.channel.fetch d course).response <;> rfl

/-- A signal is reported as one at every point of a call. If it fired before the call, nothing is sent
and nothing changes, and the call was cancelled unless the mode of the request, a stage before the
signer or the signer fails first. If it fires while the call waits, the call was cancelled, whatever
else there is to find at that moment, and the response is remembered if one has begun, whatever its
status is. And a signal is fired exactly if its own source was cancelled before. -/
theorem cancellation_reported (c : Client) (course : Course) :
    (∀ s err, s.draft = .error err → c.channel.submit s course = .refused err) ∧
    (∀ s d, s.draft = .ok d → let e := c.channel.submit s course
      c.channel.Reports d course id c.channel c.channel.remembering e.result e.sent
        (c.channel.after e)) ∧
    (∀ op err, c.Refuses op err → c.perform op course = (.refused err, c)) ∧
    (∀ op d, c.Prepares op d → let p := c.perform op course
      c.channel.Reports d course .request c c.remembering p.1.result p.1.sent p.2) ∧
    ∀ (signal : Signal) (before : List SourceStep) (looks : List Look),
      let played := Sources.course signal before looks
      (played.cancelledBefore = true ↔ signal.WasFired before) ∧
      ∀ earlier l later, looks = earlier ++ l :: later →
        ∃ waited m rest, played.moments = waited ++ m :: rest ∧ waited.length = earlier.length ∧
          m.arrival = l.arrival ∧ m.late = l.late ∧
          (m.cancelled = true ↔ signal.WasFired (before ++ earlier.flatMap (·.steps) ++ l.steps)) := by
  refine ⟨fun s err h => Channel.submit_of_error h course, fun s d h => Channel.reports_submit h course,
    fun op err h => perform_of_refuses h course, fun op d h => reports_perform h course,
    fun signal before looks => ⟨Sources.isFired_run_iff, ?_⟩⟩
  rintro earlier l later rfl
  exact Sources.moments_at signal before earlier l later

/-- A post whose source is cancelled and dropped when the body of a failure ends, too late at that, and
one whose source is cancelled before it. -/
theorem cancellation_reported_while_reading :
    let settings : ChannelSettings := ⟨"reader", 1000, 1000, none, false⟩
    let c : Client := ⟨.default, ⟨settings, .constant "token" (some "did:plc:abc") false, none⟩, none⟩
    let op : Operation := .post ⟨"hello", ⟨0, 0⟩, none, none, none, none, none, none⟩
    let signal : Signal := ⟨some 0⟩
    let headers : List Header := [⟨"Retry-after", Text.utf8Bytes "30"⟩, ⟨"server", [0xFF]⟩,
      ⟨"x-rate-limit-limit", Text.utf8Bytes " 3000"⟩, ⟨"x-rate-limit-limit", Text.utf8Bytes "7"⟩]
    let reading := Sources.course signal [.create] [⟨[], none, false⟩,
      ⟨[], some (.head 500 headers), false⟩, ⟨[.cancel 0, .drop 0], some .ended, true⟩]
    let early := Sources.course signal [.create, .cancel 0, .drop 0] [⟨[], some (.head 200 []), false⟩]
    (c.perform op reading).1.result = .error (.request .cancelled) ∧
      (c.perform op reading).2 = c.remembering
        ⟨"https://bsky.social/xrpc/com.atproto.repo.createRecord", 500,
          [("retry-after", "30"), ("x-rate-limit-limit", "7")], ⟨some 3000, none, none, some 30⟩⟩ ∧
      (c.perform op early).1.result = .error (.request .cancelled) ∧
      (c.perform op early).1.sent = [] ∧ (c.perform op early).2 = c ∧
      signal.WasFired [.create, .cancel 0, .drop 0] := by
  intro settings c op signal headers reading early
  let body : RecordCreation := ⟨"did:plc:abc", postCollection,
    ⟨postCollection, "hello", ⟨0, 0⟩, none, none, none, none, none, none⟩⟩
  let d : Draft := .ofJson c.postUrl body.toJson
  let head : ResponseHead := ⟨500, headers, [⟨true, some .ended, true⟩]⟩
  have hprepared : c.Prepares op d := .post rfl rfl
  have hsends : c.channel.Sends d reading "token" := ⟨rfl, by decide, by decide +kernel⟩
  have hawait : awaitHead 0 reading.moments = .ok head := by rfl
  have hbegins : head.Begins reading.moments := awaitHead_eq_ok_iff.mp hawait
  have hcancels : reading.Cancels (some head) := .reading hbegins (.here _ _) rfl
  obtain ⟨-, -, -, hreading, -⟩ := cancellation_reported c reading
  obtain ⟨-, -, -, hearly, hsignal⟩ := cancellation_reported c early
  obtain ⟨hresult, m, hm, hclient⟩ := (hreading op d hprepared).reading "token" head hsends hcancels
  have hkept : m = ⟨"https://bsky.social/xrpc/com.atproto.repo.createRecord", 500,
      [("retry-after", "30"), ("x-rate-limit-limit", "7")], ⟨some 3000, none, none, some 30⟩⟩ :=
    (ResponseMeta.describes_iff.mp hm).trans (by decide +kernel)
  obtain ⟨hsent, hsame⟩ := (hearly op d hprepared).before (by decide)
  have habandoned := (hearly op d hprepared).abandoned "token" rfl (by decide)
  exact ⟨hresult, hkept ▸ hclient, habandoned, hsent, hsame, (hsignal signal _ []).1.mp (by decide)⟩

end Client

end FeedClient
