import FeedClient.Proofs.Client.Operations

/-!
# What a client remembers

A client remembers the last response that began and the body of the last success
that was read to its end. Each operation either replaces what is remembered or
leaves it alone, so that after any number of them the last one that gave something
decides, whatever came of the others.
-/
namespace FeedClient

/-- A channel that was just opened has no response. -/
theorem Channel.eq_of_open? {settings : ChannelSettings} {signer : Signer} {c : Channel}
    (h : open? settings signer = .ok c) : c = ⟨settings, signer, none⟩ := by
  unfold open? at h
  split at h
  · cases h
  · split at h
    · cases h
    · exact (Except.ok.inj h).symm

/-- An operation of a client, with the signer of that time and the course of the call. -/
structure Turn where
  operation : Operation
  signer : Signer
  course : Course

/-- What the last turn gave that gave anything at all. -/
inductive IsLatest {α : Type} (gives : Turn → α → Prop) (turns : List Turn) : Option α → Prop where
  | nothing (h : ∀ t ∈ turns, ∀ a, ¬gives t a) : IsLatest gives turns none
  | given {before after : List Turn} {t : Turn} {a : α} (h : turns = before ++ t :: after)
      (ht : gives t a) (hafter : ∀ u ∈ after, ∀ b, ¬gives u b) : IsLatest gives turns (some a)

namespace IsLatest

variable {α : Type} {gives : Turn → α → Prop} {turns : List Turn} {t : Turn}

/-- A turn that gives something is the last that does. -/
theorem concat (turns : List Turn) {a : α} (ht : gives t a) :
    IsLatest gives (turns ++ [t]) (some a) :=
  .given rfl ht (List.forall_mem_nil _)

/-- A turn that gives nothing leaves the last that did. -/
theorem concat_of_nothing {o : Option α} (h : IsLatest gives turns o) (ht : ∀ a, ¬gives t a) :
    IsLatest gives (turns ++ [t]) o := by
  cases h with
  | nothing h =>
      refine .nothing fun u hu => ?_
      rcases List.mem_append.mp hu with hu | hu
      · exact h u hu
      · rw [List.mem_singleton.mp hu]; exact ht
  | @given before after s a heq hs hafter =>
      have hturns : turns ++ [t] = before ++ s :: (after ++ [t]) := by rw [heq, List.append_assoc]; rfl
      refine .given hturns hs fun u hu => ?_
      rcases List.mem_append.mp hu with hu | hu
      · exact hafter u hu
      · rw [List.mem_singleton.mp hu]; exact ht

end IsLatest

namespace Client

variable {c : Client} {op : Operation} {course : Course}

/-- The client after a turn. -/
def take (c : Client) (t : Turn) : Client := ((c.withSigner t.signer).perform t.operation t.course).2

def run (c : Client) (turns : List Turn) : Client := turns.foldl take c

/-- A response to the operation begins, and this is kept of it. -/
def Answers (c : Client) (op : Operation) (course : Course) (m : ResponseMeta) : Prop :=
  ∃ d head, c.Prepares op d ∧ c.channel.Answers d course head ∧
    m.Describes d.url head.status head.headers

/-- The response to the operation is a success, and its body is read to the end. -/
def Reads (c : Client) (op : Operation) (course : Course) (text : String) : Prop :=
  ∃ d head, c.Prepares op d ∧ c.channel.Answers d course head ∧
    head.status < 400 ∧ head.Completes text

/-- No response to the operation begins: a stage before the signer fails, or the signer does; the
signal has fired before the call, or the request cannot be sent; or the wait ends otherwise. -/
inductive Unanswered (c : Client) (op : Operation) (course : Course) : Prop where
  | refused {err : ClientError} (h : c.Refuses op err)
  | unsigned {d : Draft} {err : RequestError} (h : c.Prepares op d)
      (he : c.channel.signer.sign d.method d.url d.parameters = .error err)
  | abandoned (hc : course.cancelledBefore = true)
  | unsendable {d : Draft} {authorization : String} (h : c.Prepares op d)
      (hs : c.channel.signer.sign d.method d.url d.parameters = .ok authorization)
      (hn : d.isSendable authorization = false)
  | unheard {err : RequestError} (he : awaitHead c.channel.settings.timeout course.moments = .error err)

theorem Unanswered.not_answers (h : c.Unanswered op course) (m : ResponseMeta) :
    ¬c.Answers op course m := by
  rintro ⟨d, head, hd, ⟨⟨authorization, hsends⟩, hb⟩, -⟩
  cases h with
  | refused h => exact h.not_prepares hd
  | unsigned h he =>
      rw [h.unique hd, hsends.signed] at he
      cases he
  | abandoned hc =>
      rw [hsends.uncancelled] at hc
      cases hc
  | unsendable h hs hn =>
      obtain rfl := h.unique hd
      obtain rfl := Except.ok.inj (hsends.signed.symm.trans hs)
      rw [hsends.sendable] at hn
      cases hn
  | unheard he =>
      rw [awaitHead_eq_ok_iff.mpr hb] at he
      cases he

theorem Prepares.perform_client {d : Draft} (h : c.Prepares op d) (course : Course) :
    (c.perform op course).2 = c.after (c.channel.fetch d course) := by
  obtain ⟨read, -, hperform⟩ := perform_of_prepares h course
  rw [hperform]

/-- The client after an operation is the client after its call, if there is one. -/
theorem perform_client (c : Client) (op : Operation) (course : Course) :
    (c.perform op course).2 = c ∨
      ∃ d, c.Prepares op d ∧ (c.perform op course).2 = c.after (c.channel.fetch d course) := by
  rcases prepares_or_refuses c op with ⟨d, hd⟩ | ⟨err, h⟩
  · exact .inr ⟨d, hd, hd.perform_client course⟩
  · exact .inl (by rw [perform_of_refuses h])

theorem Answers.lastResponse_perform {m : ResponseMeta} (h : c.Answers op course m) :
    (c.perform op course).2.lastResponse = some m := by
  obtain ⟨d, head, hd, ha, hm⟩ := h
  have hresponse := Channel.fetch_response_eq_some_iff.mpr ⟨head, ha, hm⟩
  rw [hd.perform_client]
  simp [lastResponse, after, Channel.after, hresponse]

theorem lastResponse_perform_of_not_answers (h : ∀ m, ¬c.Answers op course m) :
    (c.perform op course).2.lastResponse = c.lastResponse := by
  rcases c.perform_client op course with hsame | ⟨d, hd, hafter⟩
  · rw [hsame]
  · have hresponse : (c.channel.fetch d course).response = none := by
      cases hr : (c.channel.fetch d course).response with
      | none => rfl
      | some m =>
          obtain ⟨head, ha, hm⟩ := Channel.fetch_response_eq_some_iff.mp hr
          exact absurd ⟨d, head, hd, ha, hm⟩ (h m)
    rw [hafter]
    simp [lastResponse, after, Channel.after, hresponse]

theorem Reads.raw_perform {text : String} (h : c.Reads op course text) :
    (c.perform op course).2.raw = if c.config.excludesRaw then none else some text := by
  obtain ⟨d, head, hd, ha, hf, ht⟩ := h
  have hresult := Channel.fetch_result_eq_ok_iff.mpr ⟨head, ha, hf, ht⟩
  rw [hd.perform_client]
  simp only [after, hresult]

theorem raw_perform_of_not_reads (h : ∀ text, ¬c.Reads op course text) :
    (c.perform op course).2.raw = c.raw := by
  rcases c.perform_client op course with hsame | ⟨d, hd, hafter⟩
  · rw [hsame]
  · rw [hafter]
    cases hr : (c.channel.fetch d course).result with
    | error err => simp only [after, hr]
    | ok text =>
        obtain ⟨head, ha, hf, ht⟩ := Channel.fetch_result_eq_ok_iff.mp hr
        exact absurd ⟨d, head, hd, ha, hf, ht⟩ (h text)

theorem Reads.exists_answers {text : String} (h : c.Reads op course text) :
    ∃ m, c.Answers op course m := by
  obtain ⟨d, head, hd, ha, -, -⟩ := h
  exact ⟨_, d, head, hd, ha, ResponseMeta.describes_ofHead ..⟩

theorem config_perform (c : Client) (op : Operation) (course : Course) :
    (c.perform op course).2.config = c.config := by
  rcases c.perform_client op course with hsame | ⟨d, -, hafter⟩
  · rw [hsame]
  · rw [hafter]; rfl

/-- Whether a response begins does not depend on what the client remembers already. -/
theorem Answers.congr {c' : Client} {m : ResponseMeta} (h : c.Answers op course m)
    (hconfig : c'.config = c.config) (hsigner : c'.channel.signer = c.channel.signer) :
    c'.Answers op course m := by
  obtain ⟨d, head, hd, ha, hm⟩ := h
  exact ⟨d, head, hd.congr hconfig hsigner, ha.congr hsigner, hm⟩

theorem Reads.congr {c' : Client} {text : String} (h : c.Reads op course text)
    (hconfig : c'.config = c.config) (hsigner : c'.channel.signer = c.channel.signer) :
    c'.Reads op course text := by
  obtain ⟨d, head, hd, ha, hf, ht⟩ := h
  exact ⟨d, head, hd.congr hconfig hsigner, ha.congr hsigner, hf, ht⟩

theorem run_concat (c : Client) (turns : List Turn) (t : Turn) :
    c.run (turns ++ [t]) = (c.run turns).take t :=
  List.foldl_concat ..

theorem config_run (c : Client) (turns : List Turn) : (c.run turns).config = c.config := by
  induction turns using List.reverseRecOn with
  | nil => rfl
  | append_singleton turns t ih =>
      rw [run_concat, take, config_perform]
      exact ih

/-- A cell that each turn replaces by what it gives, or leaves alone, holds what the last turn gave.
The induction goes from the last turn to the first. -/
theorem isLatest_run {α : Type} {cell : Client → Option α} {gives : Turn → α → Prop}
    (hstart : cell c = none)
    (hgives : ∀ (now : Client) t a, now.config = c.config → gives t a → cell (now.take t) = some a)
    (hnothing : ∀ (now : Client) t, now.config = c.config → (∀ a, ¬gives t a) →
      cell (now.take t) = cell now)
    (turns : List Turn) : IsLatest gives turns (cell (c.run turns)) := by
  induction turns using List.reverseRecOn with
  | nil =>
      have hnil : cell (c.run []) = none := hstart
      rw [hnil]
      exact .nothing (List.forall_mem_nil _)
  | append_singleton turns t ih =>
      rw [run_concat]
      by_cases ht : ∃ a, gives t a
      · obtain ⟨a, ha⟩ := ht
        rw [hgives _ t a (config_run c turns) ha]
        exact .concat turns ha
      · have hnone : ∀ a, ¬gives t a := not_exists.mp ht
        rw [hnothing _ t (config_run c turns) hnone]
        exact ih.concat_of_nothing hnone

theorem isLatest_lastResponse_run (hstart : c.lastResponse = none) (turns : List Turn) :
    IsLatest (fun t => (c.withSigner t.signer).Answers t.operation t.course) turns
      (c.run turns).lastResponse := by
  refine isLatest_run hstart (fun now t m hconfig h => ?_) (fun now t hconfig h => ?_) turns
  · have hnow : (now.withSigner t.signer).Answers t.operation t.course m := h.congr hconfig rfl
    exact hnow.lastResponse_perform
  · have hnow : ∀ m, ¬(now.withSigner t.signer).Answers t.operation t.course m :=
      fun m hm => h m (hm.congr hconfig.symm rfl)
    exact lastResponse_perform_of_not_answers hnow

theorem isLatest_raw_run (hstart : c.raw = none) (hraw : c.config.excludesRaw = false)
    (turns : List Turn) :
    IsLatest (fun t => (c.withSigner t.signer).Reads t.operation t.course) turns (c.run turns).raw := by
  refine isLatest_run hstart (fun now t text hconfig h => ?_) (fun now t hconfig h => ?_) turns
  · have hnow : (now.withSigner t.signer).Reads t.operation t.course text := h.congr hconfig rfl
    have hkeep : (now.withSigner t.signer).config.excludesRaw = false := hconfig ▸ hraw
    rw [take, hnow.raw_perform, hkeep, if_neg (by decide)]
  · have hnow : ∀ text, ¬(now.withSigner t.signer).Reads t.operation t.course text :=
      fun text ht => h text (ht.congr hconfig.symm rfl)
    exact raw_perform_of_not_reads hnow

/-- Bodies that are not to be kept are not kept. -/
theorem raw_run_of_excludesRaw (hstart : c.raw = none) (hraw : c.config.excludesRaw = true)
    (turns : List Turn) : (c.run turns).raw = none := by
  induction turns using List.reverseRecOn with
  | nil => exact hstart
  | append_singleton turns t ih =>
      let now := (c.run turns).withSigner t.signer
      have hkeep : now.config.excludesRaw = true := (config_run c turns).symm ▸ hraw
      rw [run_concat, take]
      by_cases h : ∃ text, now.Reads t.operation t.course text
      · obtain ⟨text, htext⟩ := h
        rw [htext.raw_perform, hkeep, if_pos rfl]
      · rw [raw_perform_of_not_reads (not_exists.mp h)]
        exact ih

/-- A client that was just opened has the checked configuration, a channel under it and no body. -/
theorem of_open? {config : Config} {signer : Signer} (h : open? config signer = .ok c) :
    config.checked = .ok c.config ∧ c.channel = ⟨c.config.channelSettings, signer, none⟩ ∧
      c.raw = none := by
  unfold open? at h
  cases hconfig : config.checked with
  | error err => rw [hconfig] at h; cases h
  | ok checked =>
      simp only [hconfig] at h
      cases hchannel : Channel.open? checked.channelSettings signer with
      | error err => rw [hchannel] at h; cases h
      | ok channel =>
          rw [hchannel] at h
          cases h
          exact ⟨rfl, Channel.eq_of_open? hchannel, rfl⟩

/-- A client that was just opened remembers nothing. -/
theorem forgets_of_open? {config : Config} {signer : Signer} (h : open? config signer = .ok c) :
    c.lastResponse = none ∧ c.raw = none := by
  obtain ⟨-, hchannel, hraw⟩ := of_open? h
  exact ⟨by rw [lastResponse, hchannel], hraw⟩

/-- A client remembers the last response that began and the body of the last success that was read to
its end, whatever came of the operations otherwise. One to which no response begins changes nothing,
and one that fails later on changes the response only. -/
theorem remembers_latest {config : Config} {signer : Signer} {opened : Client}
    (h : open? config signer = .ok opened) (turns : List Turn) :
    let c := opened.run turns
    IsLatest (fun t => (opened.withSigner t.signer).Answers t.operation t.course) turns c.lastResponse ∧
    (opened.config.excludesRaw = false →
      IsLatest (fun t => (opened.withSigner t.signer).Reads t.operation t.course) turns c.raw) ∧
    (opened.config.excludesRaw = true → c.raw = none) ∧
    ∀ t : Turn, let now := c.withSigner t.signer
      let next := c.take t
      (now.Unanswered t.operation t.course →
        next.lastResponse = c.lastResponse ∧ next.raw = c.raw) ∧
      ∀ d head, now.Prepares t.operation d → now.channel.Answers d t.course head →
        (400 ≤ head.status ∨ ∀ text, ¬head.Completes text) →
        (∃ m, next.lastResponse = some m ∧ m.Describes d.url head.status head.headers) ∧
          next.raw = c.raw := by
  intro c
  obtain ⟨hresponse, hbody⟩ := forgets_of_open? h
  refine ⟨isLatest_lastResponse_run hresponse turns, fun hraw => isLatest_raw_run hbody hraw turns,
    fun hraw => raw_run_of_excludesRaw hbody hraw turns, fun t => ⟨fun hun => ?_, ?_⟩⟩
  · have hnone := hun.not_answers
    have hunread : ∀ text, ¬(c.withSigner t.signer).Reads t.operation t.course text := fun text ht =>
      hnone _ ht.exists_answers.choose_spec
    exact ⟨lastResponse_perform_of_not_answers hnone, raw_perform_of_not_reads hunread⟩
  · intro d head hd ha hfails
    have hunread : ∀ text, ¬(c.withSigner t.signer).Reads t.operation t.course text := by
      rintro text ⟨e, begun, -, hbegun, hf, ht⟩
      obtain rfl := ha.2.unique hbegun.2
      rcases hfails with hfail | hbroken
      · omega
      · exact hbroken text ht
    have hdescribes := ResponseMeta.describes_ofHead d.url head.status head.headers
    exact ⟨⟨_, Answers.lastResponse_perform ⟨d, head, hd, ha, hdescribes⟩, hdescribes⟩,
      raw_perform_of_not_reads hunread⟩

/-- A success whose body is malformed, a response whose body does not end in time, a failure with a
complete body behind repeated and unreadable headers, and then a post that says nothing. -/
theorem remembers_latest_of_failures :
    let signer : Signer := .constant "token" (some "did:plc:abc") false
    let q : FeedQuery := .restrict .start (.and (.field "Type" .eq FeedKind.timeline.toValue)
      (.field "Algorithm" .eq (.text "abc")))
    let malformed : Course := ⟨false, [⟨false, none, false⟩, ⟨false, some (.head 200 []), false⟩,
      ⟨false, some (.piece [91]), false⟩, ⟨false, some .ended, false⟩]⟩
    let late : Course := ⟨false, [⟨false, some (.head 200 []), false⟩, ⟨false, none, true⟩]⟩
    let headers : List Header := [⟨"Retry-after", Text.utf8Bytes "30"⟩, ⟨"server", [0xFF]⟩,
      ⟨"x-rate-limit-limit", Text.utf8Bytes " 3000"⟩, ⟨"x-rate-limit-limit", Text.utf8Bytes "7"⟩]
    let failed : Course := ⟨false, [⟨false, some (.head 503 headers), false⟩,
      ⟨false, some (.piece (Text.utf8Bytes "busy")), false⟩, ⟨false, some .ended, false⟩]⟩
    let turns : List Turn := [⟨.feeds q .only, signer, malformed⟩, ⟨.feeds q .all, signer, late⟩,
      ⟨.feeds q .first, signer, failed⟩]
    let unsaid : Turn := ⟨.post ⟨" ", ⟨0, 0⟩, none, none, none, none, none, none⟩, signer, malformed⟩
    let url := "https://bsky.social/xrpc/app.bsky.feed.getTimeline?algorithm=abc"
    let kept : ResponseMeta := ⟨url, 503, [("retry-after", "30"), ("x-rate-limit-limit", "7")],
      ⟨some 3000, none, none, some 30⟩⟩
    ∃ opened, open? .default signer = .ok opened ∧
      IsLatest (fun t => (opened.withSigner t.signer).Answers t.operation t.course) turns (some kept) ∧
      IsLatest (fun t => (opened.withSigner t.signer).Reads t.operation t.course) turns (some "[") ∧
      ((opened.run turns).take unsaid).lastResponse = some kept ∧
      ((opened.run turns).take unsaid).raw = some "[" := by
  intro signer q malformed late headers failed turns unsaid url kept
  let opened : Client := ⟨.default, ⟨Config.default.channelSettings, signer, none⟩, none⟩
  have hopen : open? .default signer = .ok opened := rfl
  have hresponse : (opened.run turns).lastResponse = some kept := by decide +kernel
  have hraw : (opened.run turns).raw = some "[" := by decide +kernel
  have hunsaid : ((opened.run turns).withSigner unsaid.signer).Unanswered unsaid.operation
      unsaid.course := .refused (.blank rfl rfl)
  obtain ⟨hlast, hbody, -, hnext⟩ := remembers_latest hopen turns
  obtain ⟨hsame, hsameRaw⟩ := (hnext unsaid).1 hunsaid
  exact ⟨opened, hopen, hresponse ▸ hlast, hraw ▸ hbody rfl, hsame.trans hresponse, hsameRaw.trans hraw⟩

end Client

end FeedClient
