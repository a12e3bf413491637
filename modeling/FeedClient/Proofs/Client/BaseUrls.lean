import FeedClient.Client.Client
import FeedClient.Proofs.Text.Trimming

/-!
# Base addresses of a configuration

A base address is given in its normal form or assigned as it is, and the check
follows, perhaps behind other settings. Both routes come to the same end exactly
for addresses that are not blank. A blank address that was assigned is refused,
but given in its normal form it becomes a slash, which passes the check.
-/
namespace FeedClient

section NormalForms

theorem getLast?_normalizedUrl (s : String) : (normalizedUrl s).toList.getLast? = some '/' := by
  rw [normalizedUrl]
  split
  · assumption
  · rw [String.toList_append]
    exact List.getLast?_concat

theorem trim_normalizedUrl (s : String) : Text.trim (normalizedUrl s) = normalizedUrl s := by
  rw [normalizedUrl]
  split
  · exact Text.trim_trim s
  · cases ht : (Text.trim s).toList with
    | nil => rw [String.toList_eq_nil_iff.mp ht]; decide
    | cons c cs =>
        have happend : Text.trim s ++ "/" = String.ofList (c :: cs ++ ['/']) := by
          rw [← ht, String.ofList_append, String.ofList_toList]
        rw [happend, Text.trim_of_ends (Text.isSpace_of_trim ht) (by decide)]

@[simp] theorem normalizedUrl_normalizedUrl (s : String) :
    normalizedUrl (normalizedUrl s) = normalizedUrl s := by
  have hslash := getLast?_normalizedUrl s
  rw [← trim_normalizedUrl] at hslash
  rw [normalizedUrl]
  rw [if_pos hslash, trim_normalizedUrl]

@[simp] theorem isBlank_normalizedUrl (s : String) : Text.isBlank (normalizedUrl s) = false := by
  have hslash : '/' ∈ (normalizedUrl s).toList := List.mem_of_getLast? (getLast?_normalizedUrl s)
  rw [Text.isBlank, List.all_eq_false]
  exact ⟨'/', hslash, by decide⟩

theorem normalizedUrl_of_isBlank {s : String} (h : Text.isBlank s = true) : normalizedUrl s = "/" := by
  rw [normalizedUrl, Text.trim_of_isBlank h]
  decide

end NormalForms

/-- Settings of anything else than the base address. -/
def ConfigStep.setsOther : ConfigStep → Bool
  | .userAgent _ | .timeout _ | .bodyTimeout _ | .timeoutMillis _ | .bodyTimeoutMillis _ | .proxy _
  | .rawProxy _ | .compression _ | .excludeRaw _ => true
  | .reset | .yaml _ | .baseUrl _ | .rawBaseUrl _ | .check => false

namespace Config

/-- A configuration after some steps, up to the first one that fails. -/
def run (c : Config) (steps : List ConfigStep) : Except ClientError Config := steps.foldlM step c

theorem step_of_setsOther {s : ConfigStep} (h : s.setsOther = true) (c : Config) :
    ∃ d, c.step s = .ok d ∧ ∀ url, step { c with baseUrl := url } s = .ok { d with baseUrl := url } := by
  cases s with
  | reset | yaml | baseUrl | rawBaseUrl | check => cases h
  | _ => exact ⟨_, rfl, fun _ => rfl⟩

/-- Other settings come to the same under any base address, which they keep. -/
theorem run_of_setsOther {settings : List ConfigStep} (h : ∀ s ∈ settings, s.setsOther = true)
    (c : Config) : ∃ d, c.run settings = .ok d ∧
      ∀ url, run { c with baseUrl := url } settings = .ok { d with baseUrl := url } := by
  induction settings generalizing c with
  | nil => exact ⟨c, rfl, fun _ => rfl⟩
  | cons s settings ih =>
      obtain ⟨hs, hrest⟩ := List.forall_mem_cons.mp h
      obtain ⟨d, hd, hurl⟩ := step_of_setsOther hs c
      obtain ⟨e, he, hurls⟩ := ih hrest d
      refine ⟨e, ?_, fun url => ?_⟩
      · rw [run, List.foldlM_cons, hd]
        exact he
      · rw [run, List.foldlM_cons, hurl]
        exact hurls url

theorem run_append_check {c d : Config} {steps : List ConfigStep} (h : c.run steps = .ok d) :
    c.run (steps ++ [.check]) = d.checked := by
  rw [run] at h
  simp only [run, List.foldlM_append, List.foldlM_cons, List.foldlM_nil, bind_pure, h]
  rfl

theorem run_baseUrl (c : Config) (u : String) (rest : List ConfigStep) :
    c.run (.baseUrl u :: rest) = run { c with baseUrl := normalizedUrl u } rest := by
  rw [run, List.foldlM_cons]
  rfl

theorem run_rawBaseUrl (c : Config) (u : String) (rest : List ConfigStep) :
    c.run (.rawBaseUrl u :: rest) = run { c with baseUrl := u } rest := by
  rw [run, List.foldlM_cons]
  rfl

section Checking

variable (c : Config) {u : String}

/-- The check is done with the address before the timeouts. -/
theorem checked_of_isBlank (h : Text.isBlank u = true) :
    checked { c with baseUrl := u } = .error (.configuration "base_url must not be empty") := by
  rw [checked, fault?, if_pos h]

/-- A configuration with an address is checked by its timeouts. -/
theorem checked_of_address (h : Text.isBlank u = false) :
    checked { c with baseUrl := u } = if c.timeout = 0 ∨ c.bodyTimeout = 0
      then .error (.configuration "timeouts must be greater than zero")
      else .ok { c with baseUrl := normalizedUrl u } := by
  rw [checked, fault?, h]
  simp only [Bool.false_eq_true, if_false]
  split
  · rename_i hfault
    split at hfault <;> simp_all
  · rename_i hfault
    split at hfault <;> simp_all

/-- The normal form of an address is checked like the address, if there is one. -/
theorem checked_normalizedUrl (h : Text.isBlank u = false) :
    checked { c with baseUrl := normalizedUrl u } = checked { c with baseUrl := u } := by
  rw [checked_of_address c h, checked_of_address c (isBlank_normalizedUrl u), normalizedUrl_normalizedUrl]

end Checking

end Config

namespace Setup

/-- A setup after some changes of its configuration, up to the first one that fails. -/
def run (s : Setup) (changes : List ConfigStep) : Except ClientError Setup := changes.foldlM step s

theorem run_eq (s : Setup) (changes : List ConfigStep) :
    s.run changes = (s.config.run changes).map fun config => { s with config := config } := by
  induction changes generalizing s with
  | nil => rfl
  | cons change changes ih =>
      rw [run, Config.run, List.foldlM_cons, List.foldlM_cons, step]
      cases s.config.step change with
      | error e => rfl
      | ok config => exact ih { s with config := config }

/-- A setup opens a client of its checked configuration. -/
theorem open?_congr {s t : Setup} (hsigner : s.signer = t.signer)
    (hchecked : s.config.checked = t.config.checked) : s.open? = t.open? := by
  rw [open?, open?, hsigner]
  cases t.signer with
  | none => rfl
  | some signer => simp only [Client.open?, hchecked]

theorem open?_ne_ok {s : Setup} {e : ClientError} (h : s.config.checked = .error e) (client : Client) :
    s.open? ≠ .ok client := by
  rw [open?]
  cases s.signer with
  | none => simp
  | some signer => simp [Client.open?, h]

/-- An address that is not blank is checked alike by both routes, whatever other settings follow it, and
the same client is opened. A blank one is refused if it was assigned, or read from a text, and no client
is opened. Given in its normal form it is a slash, and the check only minds the timeouts. -/
theorem check_of_routes (s : Setup) (u : String) {settings : List ConfigStep}
    (h : ∀ change ∈ settings, change.setsOther = true) :
    let given : List ConfigStep := .baseUrl u :: settings
    let assigned : List ConfigStep := .rawBaseUrl u :: settings
    (s.config.run (given ++ [.check]) = s.config.run (assigned ++ [.check]) ↔
      Text.isBlank u = false) ∧
    (Text.isBlank u = false → (s.run given).bind open? = (s.run assigned).bind open?) ∧
    (Text.isBlank u = true → normalizedUrl u = "/" ∧
      s.config.run (assigned ++ [.check]) = .error (.configuration "base_url must not be empty") ∧
      ∀ client, (s.run assigned).bind open? ≠ .ok client) ∧
    (∃ c, s.config.run settings = .ok c ∧
      s.config.run (given ++ [.check]) = if c.timeout = 0 ∨ c.bodyTimeout = 0
        then .error (.configuration "timeouts must be greater than zero")
        else .ok { c with baseUrl := normalizedUrl u }) ∧
    ∀ text c, (Yaml.Node.ofText? text).bind Config.ofNode? = some c → Text.isBlank c.baseUrl = true →
      s.config.step (.yaml text) = .error (.configuration "base_url must not be empty") := by
  intro given assigned
  obtain ⟨c, hc, hurl⟩ := Config.run_of_setsOther h s.config
  have hgiven : s.config.run given = .ok { c with baseUrl := normalizedUrl u } :=
    (s.config.run_baseUrl u settings).trans (hurl _)
  have hassigned : s.config.run assigned = .ok { c with baseUrl := u } :=
    (s.config.run_rawBaseUrl u settings).trans (hurl u)
  have hchecked := Config.run_append_check hgiven
  have hcheckedRaw := Config.run_append_check hassigned
  have htimeouts := Config.checked_of_address c (isBlank_normalizedUrl u)
  rw [normalizedUrl_normalizedUrl] at htimeouts
  have hrefused (hu : Text.isBlank u = true) := Config.checked_of_isBlank c hu
  refine ⟨?_, fun hu => ?_,
    fun hu => ⟨normalizedUrl_of_isBlank hu, hcheckedRaw.trans (hrefused hu), fun client => ?_⟩,
    ⟨c, hc, hchecked.trans htimeouts⟩, fun text d hread hblank => ?_⟩
  · rw [hchecked, hcheckedRaw]
    constructor
    · intro heq
      cases hu : Text.isBlank u with
      | false => rfl
      | true =>
          -- A fault of the timeouts has another reason.
          rw [hrefused hu, htimeouts] at heq
          split at heq
          · exact absurd heq (by decide)
          · cases heq
    · exact Config.checked_normalizedUrl c
  · rw [run_eq, run_eq, hgiven, hassigned]
    exact open?_congr rfl (Config.checked_normalizedUrl c hu)
  · rw [run_eq, hassigned]
    exact open?_ne_ok (s := ⟨{ c with baseUrl := u }, s.signer⟩) (hrefused hu) client
  · have hstep : s.config.step (.yaml text) = d.checked := by
      rw [Config.step, Config.ofYaml, hread]
    exact hstep.trans (Config.checked_of_isBlank d hblank)

/-- An address between white space, and the empty one, before another setting. -/
theorem check_of_routes_padded :
    let settings : List ConfigStep := [.userAgent "reader"]
    let checked : Config := { Config.default with baseUrl := "http://api.test/", userAgent := "reader" }
    (∀ change ∈ settings, change.setsOther = true) ∧
    Config.run .default (.baseUrl " http://api.test " :: settings ++ [.check]) = .ok checked ∧
    Config.run .default (.rawBaseUrl " http://api.test " :: settings ++ [.check]) = .ok checked ∧
    Config.run .default (.rawBaseUrl "" :: settings ++ [.check]) =
      .error (.configuration "base_url must not be empty") ∧
    Config.step .default (.yaml "base_url: ''") =
      .error (.configuration "base_url must not be empty") := by
  intro settings checked
  have h : ∀ change ∈ settings, change.setsOther = true := List.all_eq_true.mp rfl
  obtain ⟨heq, -⟩ := check_of_routes .start " http://api.test " h
  obtain ⟨-, -, hblank, -, hyaml⟩ := check_of_routes .start "" h
  have hgiven : Config.run .default (.baseUrl " http://api.test " :: settings ++ [.check]) =
      .ok checked := rfl
  have hread : (Yaml.Node.ofText? "base_url: ''").bind Config.ofNode? =
      some { Config.default with baseUrl := "" } := by decide +kernel
  exact ⟨h, hgiven, (heq.mpr (by decide)).symm.trans hgiven, (hblank rfl).2.1, hyaml _ _ hread rfl⟩

/-- A blank address passes the check in its normal form, and a client of no service is opened. -/
theorem opens_of_blank_address :
    Config.run .default [.baseUrl " ", .check] = .ok { Config.default with baseUrl := "/" } ∧
    Config.run .default [.rawBaseUrl " ", .check] =
      .error (.configuration "base_url must not be empty") ∧
    ∃ client, ((Setup.start.withSigner (.bearer none)).run [.baseUrl " "]).bind open? = .ok client ∧
      client.config.baseUrl = "/" := by
  exact ⟨rfl, rfl, _, rfl, rfl⟩

end Setup

end FeedClient
