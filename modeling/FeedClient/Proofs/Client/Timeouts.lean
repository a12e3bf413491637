import FeedClient.Proofs.Client.Configurations

/-!
# Timeouts of long spans

A timeout is given as a span of time and kept as whole milliseconds in a word of 64
bits. Spans of no more milliseconds than a word holds are kept exactly, and in their
order. Of longer ones only the remainder is kept, so that a longer span can give a
shorter timeout.
-/
namespace FeedClient

namespace Span

/-- The length of a span in nanoseconds. -/
def length (s : Span) : Nat := s.seconds.toNat * 1000000000 + s.nanos

/-- Its whole milliseconds, however many they are. -/
def wholeMillis (s : Span) : Nat := s.length / 1000000

theorem wholeMillis_le {s t : Span} (h : s.length ≤ t.length) : s.wholeMillis ≤ t.wholeMillis :=
  Nat.div_le_div_right h

theorem toNat_millis (s : Span) : s.millis.toNat = s.wholeMillis % UInt64.size := by
  have hwhole : s.seconds.toNat * 1000 + s.nanos / 1000000 = s.wholeMillis := by
    rw [wholeMillis, length]
    omega
  rw [millis, hwhole]
  exact UInt64.toNat_ofNat'

end Span

/-- The two timeouts: until a response begins, and until its body ends. -/
inductive Deadline where
  | response
  | body
  deriving DecidableEq, Repr

namespace Deadline

open ConfigStep (latest)

/-- The step that gives a timeout as a span. -/
def setTo : Deadline → Span → ConfigStep
  | .response => .timeout
  | .body => .bodyTimeout

def setting? : Deadline → Settings → Option UInt64
  | .response => Settings.timeout
  | .body => Settings.bodyTimeout

/-- The milliseconds that a channel waits. -/
def wait : Deadline → ChannelSettings → UInt64
  | .response => ChannelSettings.timeout
  | .body => ChannelSettings.bodyTimeout

variable (d : Deadline)

@[simp] theorem setting?_setTo (s : Span) : d.setting? (d.setTo s).settings = some s.millis := by
  cases d <;> rfl

theorem wait_congr {c e : Config} (h : c.normalized = e.normalized) :
    d.wait c.channelSettings = d.wait e.channelSettings := by
  cases d with
  | response =>
      have htimeout := congrArg Config.timeout h
      rwa [Config.normalized_timeout, Config.normalized_timeout] at htimeout
  | body =>
      have htimeout := congrArg Config.bodyTimeout h
      rwa [Config.normalized_bodyTimeout, Config.normalized_bodyTimeout] at htimeout

theorem wait_lastSet (c : Config) (steps : List ConfigStep) :
    d.wait (c.lastSet steps).channelSettings = (latest d.setting? steps).getD (d.wait c.channelSettings) := by
  cases d <;> rfl

/-- Steps that do not set a timeout leave the one that was set before them. -/
theorem latest_setTo (before : List ConfigStep) (s : Span) {behind : List ConfigStep}
    (h : ∀ b ∈ behind, d.setting? b.settings = none) :
    latest d.setting? (before ++ d.setTo s :: behind) = some s.millis := by
  have hbehind : behind.filterMap (fun b => d.setting? b.settings) = [] :=
    List.filterMap_eq_nil_iff.mpr h
  rw [latest, List.filterMap_append, List.filterMap_cons, setting?_setTo, hbehind]
  exact List.getLast?_concat

/-- A channel waits for the span that was set last, as far as a word holds its milliseconds. -/
theorem wait_after (start : Config) (before : List ConfigStep) (s : Span) {behind : List ConfigStep}
    (h : ∀ b ∈ behind, d.setting? b.settings = none) :
    (d.wait (start.after (before ++ d.setTo s :: behind)).channelSettings).toNat =
      s.wholeMillis % UInt64.size := by
  rw [d.wait_congr (start.after_normalized _), wait_lastSet, d.latest_setTo before s h, Option.getD_some,
    Span.toNat_millis]

/-- An opened client waits for what its configuration says, and a timeout of zero opens none. -/
theorem wait_of_open? {c : Config} {signer : Signer} {client : Client}
    (h : Client.open? c signer = .ok client) :
    d.wait client.channel.settings = d.wait c.channelSettings ∧ d.wait c.channelSettings ≠ 0 := by
  obtain ⟨hchecked, hchannel, -⟩ := Client.of_open? h
  obtain ⟨hfault, hconfig⟩ := Config.checked_eq_ok_iff.mp hchecked
  obtain ⟨-, htimeout, hbody⟩ := Config.fault?_eq_none_iff.mp hfault
  have hwait : d.wait client.config.channelSettings = d.wait c.channelSettings := by
    rw [hconfig]
    exact d.wait_congr c.normalized_normalized
  refine ⟨?_, ?_⟩
  · rw [hchannel, hwait]
  · cases d with
    | response => exact htimeout
    | body => exact hbody

/-- A span that was set last is the timeout exactly if a word holds its whole milliseconds, and among
such spans a longer one gives no shorter timeout. Of a longer span only the remainder is left, which is
the timeout also of a client that is opened, unless it is zero and none is. -/
theorem wait_of_spans (start : Config) (before : List ConfigStep) {behind : List ConfigStep}
    (h : ∀ b ∈ behind, d.setting? b.settings = none) :
    let given (s : Span) := start.after (before ++ d.setTo s :: behind)
    let effective (s : Span) := (d.wait (given s).channelSettings).toNat
    (∀ s, effective s = s.wholeMillis % UInt64.size) ∧
    (∀ s, effective s = s.wholeMillis ↔ s.wholeMillis < UInt64.size) ∧
    (∀ s t : Span, s.length ≤ t.length → t.wholeMillis < UInt64.size → effective s ≤ effective t) ∧
    ∀ s signer client, Client.open? (given s) signer = .ok client →
      (d.wait client.channel.settings).toNat = effective s ∧ effective s ≠ 0 := by
  intro given effective
  have hremainder : ∀ s, effective s = s.wholeMillis % UInt64.size := fun s =>
    d.wait_after start before s h
  have hexact : ∀ s, effective s = s.wholeMillis ↔ s.wholeMillis < UInt64.size := fun s => by
    rw [hremainder]
    exact Nat.mod_eq_iff_lt (by decide)
  refine ⟨hremainder, hexact, fun s t hst ht => ?_, fun s signer client hopen => ?_⟩
  · have hle := Span.wholeMillis_le hst
    rw [(hexact s).mpr (Nat.lt_of_le_of_lt hle ht), (hexact t).mpr ht]
    exact hle
  · obtain ⟨hwait, hne⟩ := d.wait_of_open? hopen
    refine ⟨congrArg UInt64.toNat hwait, fun hzero => hne ?_⟩
    exact UInt64.toNat_inj.mp hzero

/-- A span of five seconds and some nanoseconds, before a step that sets the other timeout. -/
theorem wait_of_spans_behind :
    let behind : List ConfigStep := [.bodyTimeoutMillis 7000, .check]
    (∀ b ∈ behind, response.setting? b.settings = none) ∧
    (response.wait (Config.default.after (.timeout ⟨5, 999999⟩ :: behind)).channelSettings).toNat = 5000 := by
  intro behind
  have h : ∀ b ∈ behind, response.setting? b.settings = none := by
    intro b hb
    rcases List.mem_cons.mp hb with rfl | hb
    · rfl
    · rw [List.mem_singleton.mp hb]
      rfl
  obtain ⟨-, hexact, -⟩ := wait_of_spans response .default [] h
  exact ⟨h, (hexact ⟨5, 999999⟩).mpr (by decide)⟩

/-- A span of more milliseconds than a word holds gives a shorter timeout than a second does, and one of
exactly as many words gives none, so that the check refuses it. -/
theorem wait_shortened_of_long_span :
    let second : Span := ⟨1, 0⟩
    let long : Span := ⟨18446744073709551, 617000000⟩
    let round : Span := ⟨18446744073709551, 616000000⟩
    second.length < long.length ∧
    (response.wait (Config.default.after [.timeout second]).channelSettings).toNat = 1000 ∧
    (response.wait (Config.default.after [.timeout long]).channelSettings).toNat = 1 ∧
    (body.wait (Config.default.after [.bodyTimeout long]).channelSettings).toNat = 1 ∧
    second.length < round.length ∧
    Config.run .default [.timeout round, .check] =
      .error (.configuration "timeouts must be greater than zero") := by
  decide +kernel

end Deadline

end FeedClient
