import FeedClient.Proofs.Client.BaseUrls
import FeedClient.Proofs.Client.Remembering

/-!
# Configurations that clients work from

A configuration is changed in any number of steps, some of which normalize its base
address while others do not. Up to the normal form of that address, each field is what
the last step that sets it has set. A client is only opened after the check, so that it
works from the normal form, and every request goes to an operation behind that address.
-/
namespace FeedClient

/-- The fields that a step sets, and what it sets them to. -/
structure Settings where
  baseUrl : Option String
  userAgent : Option String
  timeout : Option UInt64
  bodyTimeout : Option UInt64
  proxy : Option (Option String)
  compression : Option Bool
  excludesRaw : Option Bool

namespace Settings

def untouched : Settings := ⟨none, none, none, none, none, none, none⟩

/-- Every field, as in a configuration. -/
def whole (c : Config) : Settings :=
  ⟨some c.baseUrl, some c.userAgent, some c.timeout, some c.bodyTimeout, some c.proxy,
    some c.compression, some c.excludesRaw⟩

end Settings

namespace Config

/-- The configuration with its base address in the normal form. -/
def normalized (c : Config) : Config := { c with baseUrl := normalizedUrl c.baseUrl }

@[simp] theorem normalized_baseUrl (c : Config) : c.normalized.baseUrl = normalizedUrl c.baseUrl := by
  rw [normalized]

@[simp] theorem normalized_timeout (c : Config) : c.normalized.timeout = c.timeout := by
  rw [normalized]

@[simp] theorem normalized_bodyTimeout (c : Config) : c.normalized.bodyTimeout = c.bodyTimeout := by
  rw [normalized]

theorem normalized_normalized (c : Config) : c.normalized.normalized = c.normalized := by
  simp [normalized]

/-- A configuration under some settings. -/
def updated (c : Config) (w : Settings) : Config where
  baseUrl := w.baseUrl.getD c.baseUrl
  userAgent := w.userAgent.getD c.userAgent
  timeout := w.timeout.getD c.timeout
  bodyTimeout := w.bodyTimeout.getD c.bodyTimeout
  proxy := w.proxy.getD c.proxy
  compression := w.compression.getD c.compression
  excludesRaw := w.excludesRaw.getD c.excludesRaw

/-- The configuration that a text gives, if it passes the check. -/
def ofText? (text : String) : Option Config :=
  ((Yaml.Node.ofText? text).bind ofNode?).filter fun c => c.fault?.isNone

end Config

namespace ConfigStep

def settings : ConfigStep → Settings
  | .reset => .whole .default
  | .yaml text => (Config.ofText? text).elim .untouched .whole
  | .baseUrl url => { Settings.untouched with baseUrl := some url }
  | .rawBaseUrl url => { Settings.untouched with baseUrl := some url }
  | .userAgent text => { Settings.untouched with userAgent := some text }
  | .timeout span => { Settings.untouched with timeout := some span.millis }
  | .bodyTimeout span => { Settings.untouched with bodyTimeout := some span.millis }
  | .timeoutMillis n => { Settings.untouched with timeout := some n }
  | .bodyTimeoutMillis n => { Settings.untouched with bodyTimeout := some n }
  | .proxy url => { Settings.untouched with proxy := some (some url) }
  | .rawProxy url => { Settings.untouched with proxy := some url }
  | .compression enabled => { Settings.untouched with compression := some enabled }
  | .excludeRaw excluded => { Settings.untouched with excludesRaw := some excluded }
  | .check => .untouched

/-- What a field was last set to, if any step sets it. -/
def latest {α : Type} (field : Settings → Option α) (steps : List ConfigStep) : Option α :=
  (steps.filterMap fun s => field s.settings).getLast?

theorem latest_concat {α : Type} (field : Settings → Option α) (steps : List ConfigStep) (s : ConfigStep) :
    latest field (steps ++ [s]) = (field s.settings).or (latest field steps) := by
  unfold latest
  rw [List.filterMap_append, List.getLast?_append]
  cases h : field s.settings <;> simp [h]

end ConfigStep

namespace Config

open ConfigStep

/-- A configuration whose fields are as they were last set. -/
def lastSet (c : Config) (steps : List ConfigStep) : Config :=
  c.updated ⟨latest Settings.baseUrl steps, latest Settings.userAgent steps, latest Settings.timeout steps,
    latest Settings.bodyTimeout steps, latest Settings.proxy steps, latest Settings.compression steps,
    latest Settings.excludesRaw steps⟩

/-- A configuration after a step, or as it was if the step fails. -/
def next (c : Config) (s : ConfigStep) : Config :=
  match c.step s with
  | .ok d => d
  | .error _ => c

def after (c : Config) (steps : List ConfigStep) : Config := steps.foldl next c

section Checking

variable {c d : Config}

theorem checked_eq_ok_iff : c.checked = .ok d ↔ c.fault? = none ∧ d = c.normalized := by
  unfold checked
  cases c.fault? with
  | some reason => simp
  | none => simp [normalized, eq_comm]

theorem fault?_eq_none_iff :
    c.fault? = none ↔ Text.isBlank c.baseUrl = false ∧ c.timeout ≠ 0 ∧ c.bodyTimeout ≠ 0 := by
  unfold fault?
  split <;> simp_all

/-- The check fails for the base address or else for the timeouts. -/
theorem checked_eq_error_iff {err : ClientError} :
    c.checked = .error err ↔
      (Text.isBlank c.baseUrl = true ∧ err = .configuration "base_url must not be empty") ∨
      Text.isBlank c.baseUrl = false ∧ (c.timeout = 0 ∨ c.bodyTimeout = 0) ∧
        err = .configuration "timeouts must be greater than zero" := by
  unfold checked fault?
  cases Text.isBlank c.baseUrl with
  | true => simp [eq_comm]
  | false =>
      by_cases h : c.timeout = 0 ∨ c.bodyTimeout = 0
      · simp [h, eq_comm]
      · simp [h]

theorem fault?_normalized (h : c.fault? = none) : c.normalized.fault? = none := by
  rw [fault?_eq_none_iff] at h ⊢
  rw [normalized_baseUrl, isBlank_normalizedUrl, normalized_timeout, normalized_bodyTimeout]
  exact ⟨rfl, h.2⟩

/-- What passed the check once passes it unchanged. -/
theorem checked_of_checked (h : c.checked = .ok d) : d.checked = .ok d := by
  obtain ⟨hfault, rfl⟩ := checked_eq_ok_iff.mp h
  exact checked_eq_ok_iff.mpr ⟨fault?_normalized hfault, c.normalized_normalized.symm⟩

theorem sound_of_checked (h : c.checked = .ok d) :
    d.baseUrl.toList.getLast? = some '/' ∧ Text.trim d.baseUrl = d.baseUrl ∧ d.timeout ≠ 0 ∧
      d.bodyTimeout ≠ 0 := by
  obtain ⟨hfault, rfl⟩ := checked_eq_ok_iff.mp h
  obtain ⟨-, htimeouts⟩ := fault?_eq_none_iff.mp hfault
  rw [normalized_baseUrl, getLast?_normalizedUrl, trim_normalizedUrl, normalized_timeout,
    normalized_bodyTimeout]
  exact ⟨rfl, rfl, htimeouts⟩

end Checking

section Steps

variable {c d : Config}

theorem updated_normalized (h : c.normalized = d.normalized) (w : Settings) :
    (c.updated w).normalized = (d.updated w).normalized := by
  simp only [normalized, Config.mk.injEq] at h
  obtain ⟨hurl, hagent, htimeout, hbody, hproxy, hcompression, hraw⟩ := h
  unfold updated normalized
  rw [hagent, htimeout, hbody, hproxy, hcompression, hraw]
  cases w.baseUrl with
  | none => rw [Option.getD_none, Option.getD_none, hurl]
  | some url => rfl

/-- A text that is refused changes nothing. -/
theorem next_yaml (c : Config) (text : String) :
    c.next (.yaml text) = ((ofText? text).map normalized).getD c := by
  rw [next, step, ofYaml, ofText?]
  generalize (Yaml.Node.ofText? text).bind ofNode? = read
  cases read with
  | none => rfl
  | some d =>
      simp only [checked]
      cases hfault : d.fault? with
      | some reason => simp [Option.filter, hfault]
      | none => simp [Option.filter, hfault, normalized]

/-- Up to the normal form of the address, a step does what it sets. The check sets nothing, and a text
sets nothing if it is refused. -/
theorem next_normalized (c : Config) (s : ConfigStep) :
    (c.next s).normalized = (c.updated s.settings).normalized := by
  cases s with
  | yaml text =>
      rw [next_yaml, ConfigStep.settings]
      generalize ofText? text = given
      cases given with
      | none => rfl
      | some d => simp [normalized, updated, Settings.whole]
  | check =>
      rw [next, step]
      cases hchecked : c.checked with
      | error err => rfl
      | ok d =>
          obtain ⟨-, rfl⟩ := checked_eq_ok_iff.mp hchecked
          simp [normalized, updated, ConfigStep.settings, Settings.untouched]
  | baseUrl url => simp [next, step, normalized, updated, ConfigStep.settings, Settings.untouched]
  | _ => rfl

theorem after_concat (c : Config) (steps : List ConfigStep) (s : ConfigStep) :
    c.after (steps ++ [s]) = (c.after steps).next s :=
  List.foldl_concat ..

theorem lastSet_concat (c : Config) (steps : List ConfigStep) (s : ConfigStep) :
    c.lastSet (steps ++ [s]) = (c.lastSet steps).updated s.settings := by
  simp only [lastSet, latest_concat, updated, Option.getD_or]

/-- Up to the normal form of the address, every field is as it was last set. -/
theorem after_normalized (c : Config) (steps : List ConfigStep) :
    (c.after steps).normalized = (c.lastSet steps).normalized := by
  induction steps using List.reverseRecOn with
  | nil => rfl
  | append_singleton steps s ih =>
      rw [after_concat, next_normalized, lastSet_concat]
      exact updated_normalized ih s.settings

/-- Steps that all succeed come to the same. -/
theorem after_of_run {steps : List ConfigStep} (h : c.run steps = .ok d) : c.after steps = d := by
  induction steps generalizing c with
  | nil => exact Except.ok.inj h
  | cons s steps ih =>
      rw [run, List.foldlM_cons] at h
      cases hs : c.step s with
      | error err =>
          rw [hs] at h
          cases h
      | ok e =>
          rw [hs] at h
          have hnext : c.next s = e := by rw [next, hs]
          rw [after, List.foldl_cons, hnext]
          exact ih h

end Steps

end Config

namespace EntityKind

/-- A request for feeds goes to the operation of their kind. -/
theorem endpoint_of_request {baseUrl : String} {params : Parameters} {r : Request} {i : FeedInputs}
    (hr : feed.request baseUrl params = .ok r) (hi : FeedInputs.ofParameters params = .ok i) :
    r.endpoint = baseUrl ++ "xrpc/" ++ i.kind.operation := by
  rw [feed_request_of_validate baseUrl (validate_of_request hr) hi] at hr
  cases hr
  rfl

end EntityKind

namespace Client

variable {c : Client}

theorem endpoint_of_plan {q : FeedQuery} {r : Request} {i : FeedInputs} (h : c.plan q = .ok (r, i)) :
    r.endpoint = c.config.baseUrl ++ "xrpc/" ++ i.kind.operation := by
  obtain ⟨params, -, hr, hi⟩ := plan_eq_ok_iff.mp h
  exact EntityKind.endpoint_of_request hr hi

/-- A request for the entity of a tag is planned by the query with that filter. -/
theorem plan_of_buildRequest {tag : String} {p : Predicate} {captures : Captures} {r : Request}
    (h : c.buildRequest tag p captures = .ok r) : ∃ i, c.plan ⟨some p, captures⟩ = .ok (r, i) := by
  by_cases htag : tag = "Feed"
  · rw [htag, ← request_eq_buildRequest, request] at h
    cases hplan : c.plan ⟨some p, captures⟩ with
    | error err =>
        rw [hplan] at h
        cases h
    | ok planned =>
        rw [hplan] at h
        exact ⟨planned.2, by rw [← Except.ok.inj h]⟩
  · have hunsupported : EntityKind.ofTag tag = .error (.unsupportedEntity tag) := if_neg htag
    simp [buildRequest, hunsupported, asClientError, bind, Except.bind] at h

/-- A client that is opened after any number of steps works from what they have set last, with the base
address in its normal form, also after any number of operations. Its requests go to operations behind
that address. The check would change nothing any more, and what it refuses are blank addresses and, behind
them, timeouts of zero. Steps that fail change nothing. -/
theorem works_from_normalized (start : Config) (steps : List ConfigStep) {signer : Signer}
    {client : Client} (h : open? (start.after steps) signer = .ok client) :
    let used := client.config
    let address := Text.trim (start.lastSet steps).baseUrl
    used = (start.after steps).normalized ∧ used = (start.lastSet steps).normalized ∧
    (used.baseUrl = if address.toList.getLast? = some '/' then address else address ++ "/") ∧
    used.baseUrl.toList.getLast? = some '/' ∧ Text.trim used.baseUrl = used.baseUrl ∧
    used.timeout ≠ 0 ∧ used.bodyTimeout ≠ 0 ∧ used.checked = .ok used ∧
    (∀ turns, let now := client.run turns
      now.config = used ∧
      (∀ tag p captures r, now.buildRequest tag p captures = .ok r →
        ∃ i, now.plan ⟨some p, captures⟩ = .ok (r, i)) ∧
      (∀ q r i, now.plan q = .ok (r, i) → r.endpoint = used.baseUrl ++ "xrpc/" ++ i.kind.operation) ∧
      now.postUrl = used.baseUrl ++ "xrpc/" ++ createRecordOperation) ∧
    (∀ c, start.run steps = .ok c → start.after steps = c) ∧
    ∀ (c : Config) err, c.checked = .error err ↔
      (Text.isBlank c.baseUrl = true ∧ err = .configuration "base_url must not be empty") ∨
      Text.isBlank c.baseUrl = false ∧ (c.timeout = 0 ∨ c.bodyTimeout = 0) ∧
        err = .configuration "timeouts must be greater than zero" := by
  intro used address
  obtain ⟨hchecked, -⟩ := of_open? h
  obtain ⟨-, hused⟩ := Config.checked_eq_ok_iff.mp hchecked
  obtain ⟨hslash, htrim, htimeout, hbody⟩ := Config.sound_of_checked hchecked
  have hlast : used = (start.lastSet steps).normalized :=
    hused.trans (Config.after_normalized start steps)
  have haddress :
      used.baseUrl = if address.toList.getLast? = some '/' then address else address ++ "/" := by
    rw [hlast, Config.normalized_baseUrl, normalizedUrl]
  refine ⟨hused, hlast, haddress, hslash, htrim, htimeout, hbody,
    Config.checked_of_checked hchecked, fun turns => ?_, fun c => Config.after_of_run,
    fun c err => Config.checked_eq_error_iff⟩
  · have hnow : (client.run turns).config = used := config_run client turns
    refine ⟨hnow, fun tag p captures r => plan_of_buildRequest, fun q r i hplan => ?_, ?_⟩
    · rw [← hnow]
      exact endpoint_of_plan hplan
    · rw [postUrl, hnow]

/-- An address between white space, given in its normal form and then assigned as it is, before a text
that is refused and a timeout. A proxy is set and taken away again. -/
theorem works_from_normalized_padded :
    let steps : List ConfigStep := [.baseUrl "http://a.test", .proxy "http://p.test", .check,
      .rawBaseUrl " http://b.test\t", .yaml "base_url: ''", .rawProxy none, .timeoutMillis 5000]
    let used : Config := { Config.default with baseUrl := "http://b.test/", timeout := 5000 }
    ∃ client, open? (Config.default.after steps) (.bearer none) = .ok client ∧ client.config = used ∧
      used = (Config.default.lastSet steps).normalized ∧ used.checked = .ok used ∧
      client.postUrl = "http://b.test/xrpc/com.atproto.repo.createRecord" := by
  intro steps used
  have hafter : Config.default.after steps =
      { Config.default with baseUrl := " http://b.test\t", timeout := 5000 } := by decide +kernel
  have hopen : open? (Config.default.after steps) (.bearer none) =
      .ok ⟨used, ⟨used.channelSettings, .bearer none, none⟩, none⟩ := by
    rw [hafter]
    exact rfl
  obtain ⟨-, hlast, -, -, -, -, -, hchecked, hruns, -⟩ := works_from_normalized .default steps hopen
  obtain ⟨-, -, -, hpost⟩ := hruns []
  exact ⟨_, hopen, rfl, hlast, hchecked, hpost.trans (by decide +kernel)⟩

end Client

end FeedClient
