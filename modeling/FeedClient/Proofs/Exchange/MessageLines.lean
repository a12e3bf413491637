import FeedClient.Exchange.Channel
import FeedClient.Proofs.Text.LossyText
import FeedClient.Proofs.Text.Trimming
import Mathlib.Data.List.DropRight
import Mathlib.Data.List.Infix

/-!
# The messages of a stream

A stream is cut into lines piece by piece, with the unfinished line carried from
one piece to the next. Whatever the pieces are, the lines are those of the whole
body, and a listener hears their messages up to the first one that it closes on.
-/
namespace FeedClient

theorem splitLines_lineFeed (bs : List UInt8) :
    splitLines (lineFeed :: bs) = ([] :: (splitLines bs).1, (splitLines bs).2) := by
  simp [splitLines]

/-- A byte in front of an unfinished line belongs to it. -/
theorem splitLines_cons_of_nil {b : UInt8} {bs : List UInt8} (hb : b ≠ lineFeed)
    (h : (splitLines bs).1 = []) : splitLines (b :: bs) = ([], b :: (splitLines bs).2) := by
  simp [splitLines, hb, h]

/-- A byte in front of a finished line belongs to it. -/
theorem splitLines_cons_of_cons {b : UInt8} {bs l : List UInt8} {ls : List (List UInt8)}
    (hb : b ≠ lineFeed) (h : (splitLines bs).1 = l :: ls) :
    splitLines (b :: bs) = ((b :: l) :: ls, (splitLines bs).2) := by
  simp [splitLines, hb, h]

/-- The lines of a body are the parts between its line feeds, the last of them unfinished. -/
theorem splitOn_lineFeed (bs : List UInt8) :
    bs.splitOn lineFeed = (splitLines bs).1 ++ [(splitLines bs).2] := by
  induction bs with
  | nil => rfl
  | cons b bs ih =>
      rw [List.splitOn] at ih ⊢
      rw [List.splitOnP_cons_eq_if_modifyHead, ih]
      by_cases hb : b = lineFeed
      · subst hb; simp [splitLines_lineFeed]
      · cases hl : (splitLines bs).1 with
        | nil => simp [hb, splitLines_cons_of_nil hb hl]
        | cons l ls => simp [hb, splitLines_cons_of_cons hb hl]

/-- Behind the first bytes of a body only their unfinished line is needed to go on. -/
theorem splitLines_append (xs ys : List UInt8) :
    splitLines (xs ++ ys) =
      ((splitLines xs).1 ++ (splitLines ((splitLines xs).2 ++ ys)).1,
        (splitLines ((splitLines xs).2 ++ ys)).2) := by
  induction xs with
  | nil => rfl
  | cons b xs ih =>
      rw [List.cons_append]
      by_cases hb : b = lineFeed
      · subst hb; rw [splitLines_lineFeed, splitLines_lineFeed, ih, List.cons_append]
      · cases hl : (splitLines xs).1 with
        | nil =>
            rw [hl, List.nil_append] at ih
            have hcons : splitLines (b :: (xs ++ ys)) = splitLines (b :: ((splitLines xs).2 ++ ys)) := by
              rw [splitLines, splitLines, ih]
            rw [splitLines_cons_of_nil hb hl, hcons]
            rfl
        | cons l ls =>
            rw [hl, List.cons_append] at ih
            rw [splitLines_cons_of_cons hb hl, splitLines_cons_of_cons hb (congrArg Prod.fst ih), ih,
              List.cons_append]

/-- An unfinished line has no line feed. -/
theorem splitLines_unfinished (bs : List UInt8) :
    splitLines (splitLines bs).2 = ([], (splitLines bs).2) := by
  induction bs with
  | nil => rfl
  | cons b bs ih =>
      by_cases hb : b = lineFeed
      · subst hb; rw [splitLines_lineFeed]; exact ih
      · cases hl : (splitLines bs).1 with
        | nil =>
            rw [splitLines_cons_of_nil hb hl, splitLines_cons_of_nil hb (congrArg Prod.fst ih), ih]
        | cons l ls => rw [splitLines_cons_of_cons hb hl]; exact ih

namespace Delivery

theorem offer_of_closed (listener : Listener) {d : Delivery} (h : d.closed = true)
    (line : List UInt8) : d.offer listener line = d := by rw [offer, if_pos h]

theorem offerAll_of_closed (listener : Listener) {d : Delivery} (h : d.closed = true)
    (lines : List (List UInt8)) : d.offerAll listener lines = d := by
  induction lines with
  | nil => rfl
  | cons line lines ih => rw [offerAll, List.foldl_cons, offer_of_closed listener h]; exact ih

theorem offerAll_append (listener : Listener) (d : Delivery) (xs ys : List (List UInt8)) :
    d.offerAll listener (xs ++ ys) = (d.offerAll listener xs).offerAll listener ys :=
  List.foldl_append

/-- Nothing stands on an empty line. -/
theorem offer_nil (listener : Listener) (d : Delivery) : d.offer listener [] = d := by
  rw [offer]
  split
  · rfl
  · rfl

/-- A listener that leaves the signal alone leaves it alone for any number of lines. -/
theorem offerAll_cancelled {listener : Listener} (hl : ∀ seen, (listener seen).cancels = false)
    (d : Delivery) (lines : List (List UInt8)) :
    (d.offerAll listener lines).cancelled = d.cancelled := by
  induction lines generalizing d with
  | nil => rfl
  | cons line lines ih =>
      rw [offerAll, List.foldl_cons]
      refine (ih _).trans ?_
      rw [offer]
      split
      · rfl
      · split
        · rfl
        · simp [hl]

end Delivery

/-- The bytes of a body that arrive before it ends or breaks off. -/
def received : List Moment → List UInt8
  | [] => []
  | m :: ms =>
    match m.arrival with
    | some (.piece bytes) => bytes ++ received ms
    | none => received ms
    | some _ => []

/-- Whether a body comes to its end. -/
def isEnded : List Moment → Bool
  | [] => false
  | m :: ms =>
    match m.arrival with
    | some .ended => true
    | some .broken => false
    | some (.head ..) => false
    | _ => isEnded ms

/-- Under a signal that never fires, the pieces of a body are delivered as its lines. The induction
is on what the connection brings, and carries that the unfinished line has no line feed. -/
theorem deliver_of_quiet {listener : Listener} (hl : ∀ seen, (listener seen).cancels = false)
    (ms : List Moment) (hq : ∀ m ∈ ms, m.cancelled = false) (d : Delivery)
    (hc : d.closed = false) (hx : d.cancelled = false) (unfinished : List UInt8)
    (hu : splitLines unfinished = ([], unfinished)) :
    deliver listener d unfinished ms =
      let lines := splitLines (unfinished ++ received ms)
      let all := d.offerAll listener lines.1
      if isEnded ms then (.ok (), all.offer listener lines.2)
      else (if all.closed then .ok () else .error .transport, all) := by
  induction ms generalizing d unfinished with
  | nil => simp [deliver, received, isEnded, hu, Delivery.offerAll, hc, hx]
  | cons m ms ih =>
      have hm : m.cancelled = false := hq m (List.mem_cons_self ..)
      have hq' : ∀ m ∈ ms, m.cancelled = false := fun m hm => hq m (List.mem_cons_of_mem _ hm)
      simp only [deliver, hm, hx, Bool.or_self, Bool.false_eq_true, ↓reduceIte]
      match ha : m.arrival with
      | none => simp only [received, isEnded, ha, ih hq' d hc hx unfinished hu]
      | some .broken => simp [received, isEnded, ha, hu, Delivery.offerAll, hc]
      | some (.head status headers) => simp [received, isEnded, ha, hu, Delivery.offerAll, hc]
      | some .ended =>
          cases unfinished with
          | nil => simp [received, isEnded, ha, hu, Delivery.offerAll, Delivery.offer_nil]
          | cons b bs => simp [received, isEnded, ha, hu, Delivery.offerAll]
      | some (.piece bytes) =>
          have hall := Delivery.offerAll_append listener d (splitLines (unfinished ++ bytes)).1
            (splitLines ((splitLines (unfinished ++ bytes)).2 ++ received ms)).1
          simp only [received, isEnded, ha, ← List.append_assoc,
            splitLines_append (unfinished ++ bytes) (received ms), hall]
          cases hclosed : (d.offerAll listener (splitLines (unfinished ++ bytes)).1).closed with
          | true =>
              simp only [if_true, Delivery.offerAll_of_closed listener hclosed,
                Delivery.offer_of_closed listener hclosed, hclosed, ite_self]
          | false =>
              simp only [Bool.false_eq_true, if_false]
              exact ih hq' _ hclosed ((Delivery.offerAll_cancelled hl d _).trans hx) _
                (splitLines_unfinished _)

/-- The text of a line without the line ends behind it. -/
def lineText (line : List UInt8) : String :=
  String.ofList ((Text.ofUtf8Lossy line).rdropWhile isLineEnd)

/-- The texts of lines, without the blank ones. -/
def lineMessages (lines : List (List UInt8)) : List String :=
  (lines.map lineText).filter fun text => !Text.isBlank text

theorem filterMap_message? (lines : List (List UInt8)) :
    lines.filterMap message? = lineMessages lines := by
  induction lines with
  | nil => rfl
  | cons line lines ih =>
      have hm : message? line = Text.nonblank? (lineText line) := rfl
      simp only [List.filterMap_cons, hm, lineMessages, List.map_cons, List.filter_cons]
      rw [Text.nonblank?]
      cases hb : Text.isBlank (lineText line) with
      | true => simpa [lineMessages] using ih
      | false => simpa [lineMessages] using ih

/-- The line feed behind a line is no part of its message. -/
theorem message?_append_lineFeed (line : List UInt8) : message? (line ++ [lineFeed]) = message? line := by
  have hchars : Text.ofUtf8Lossy (line ++ [lineFeed]) = Text.ofUtf8Lossy line ++ ['\n'] :=
    Text.ofUtf8Lossy_append_ascii (by decide) line []
  rw [message?, message?, hchars, List.reverse_append]
  rfl

/-- The messages up to the first one that the listener closes on, or all of them. -/
def heard (listener : Listener) (messages : List String) : List String :=
  (messages.inits.tail.find? fun seen => (listener seen).closes).getD messages

/-- Whether the listener closes on one of the messages. -/
def closesOn (listener : Listener) (messages : List String) : Bool :=
  messages.inits.tail.any fun seen => (listener seen).closes

/-- What a listener has heard after each of some messages that follow others. -/
def segments (before messages : List String) : List (List String) :=
  messages.inits.tail.map (before ++ ·)

theorem segments_nil (before : List String) : segments before [] = [] := rfl

theorem segments_cons (before : List String) (m : String) (messages : List String) :
    segments before (m :: messages) = (before ++ [m]) :: segments (before ++ [m]) messages := by
  cases messages with
  | nil => rfl
  | cons n messages => simp [segments, Function.comp_def]

theorem segments_start (messages : List String) : segments [] messages = messages.inits.tail := by
  simp [segments]

namespace Delivery

/-- What a delivery comes to. The induction is on the lines and carries the messages delivered before. -/
theorem offerAll_spec (listener : Listener) (lines : List (List UInt8)) (d : Delivery)
    (hc : d.closed = false) :
    (d.offerAll listener lines).messages =
        ((segments d.messages (lines.filterMap message?)).find? fun seen =>
          (listener seen).closes).getD (d.messages ++ lines.filterMap message?) ∧
      (d.offerAll listener lines).closed =
        (segments d.messages (lines.filterMap message?)).any fun seen => (listener seen).closes := by
  induction lines generalizing d with
  | nil => simp [offerAll, hc, segments_nil]
  | cons line lines ih =>
      rw [offerAll, List.foldl_cons, offer, if_neg (by simp [hc]), List.filterMap_cons]
      cases hm : message? line with
      | none => exact ih d hc
      | some m =>
          simp only [segments_cons, List.find?_cons, List.any_cons]
          cases hr : (listener (d.messages ++ [m])).closes with
          | true =>
              let ended : Delivery :=
                ⟨d.messages ++ [m], true, d.cancelled || (listener (d.messages ++ [m])).cancels⟩
              have hstop : ended.offerAll listener lines = ended := offerAll_of_closed listener rfl lines
              rw [offerAll] at hstop
              rw [hstop]
              exact ⟨rfl, rfl⟩
          | false =>
              have hnext := ih
                ⟨d.messages ++ [m], false, d.cancelled || (listener (d.messages ++ [m])).cancels⟩ rfl
              simpa [offerAll] using hnext

theorem offerAll_start (listener : Listener) (lines : List (List UInt8)) :
    (start.offerAll listener lines).messages = heard listener (lineMessages lines) ∧
      (start.offerAll listener lines).closed = closesOn listener (lineMessages lines) := by
  have h := offerAll_spec listener lines start rfl
  rw [filterMap_message?] at h
  rw [show start.messages = [] from rfl, segments_start, List.nil_append] at h
  exact h

end Delivery

/-- The beginning of a response takes moments off the course and leaves the others as they are. -/
theorem following_suffix_of_awaitHead {millis : UInt64} {ms : List Moment} {h : ResponseHead}
    (hh : awaitHead millis ms = .ok h) : h.following <:+ ms := by
  induction ms with
  | nil => cases hh
  | cons m ms ih =>
      rw [awaitHead] at hh
      split at hh
      · cases hh
      · split at hh
        · cases hh; exact List.suffix_cons m ms
        · cases hh
        · split at hh
          · cases hh
          · exact (ih hh).trans (List.suffix_cons m ms)

/-- The signal of a call never fires while it runs. -/
structure Course.IsQuiet (course : Course) : Prop where
  start : course.cancelledBefore = false
  run : ∀ m ∈ course.moments, m.cancelled = false

/-- A stream is opened: its request is signed and sent, and a success begins. -/
structure Channel.Opens (c : Channel) (r : Request) (course : Course) (head : ResponseHead) : Prop where
  streaming : r.streaming = true
  sendable : ∃ authorization, c.signer.sign r.method r.url r.parameters = .ok authorization ∧
    Draft.isSendable ⟨r.method, r.url, r.parameters, false, none⟩ authorization = true
  began : awaitHead c.settings.timeout course.moments = .ok head
  success : Status.isFailure head.status = false
  quiet : course.IsQuiet

/-- The moments in which a body comes in pieces and ends. -/
def bodyMoments (pieces : List (List UInt8)) : List Moment :=
  pieces.map (fun bytes => ⟨false, some (.piece bytes), false⟩) ++ [⟨false, some .ended, false⟩]

/-- The course of a call whose success comes in pieces. -/
def Course.ofPieces (pieces : List (List UInt8)) : Course :=
  ⟨false, ⟨false, some (.head 200 []), false⟩ :: bodyMoments pieces⟩

theorem received_bodyMoments (pieces : List (List UInt8)) :
    received (bodyMoments pieces) = pieces.flatten ∧ isEnded (bodyMoments pieces) = true := by
  induction pieces with
  | nil => exact ⟨rfl, rfl⟩
  | cons bytes pieces ih => exact ⟨congrArg (bytes ++ ·) ih.1, ih.2⟩

theorem Channel.opens_ofPieces {c : Channel} {r : Request} (hr : r.streaming = true)
    (hsend : ∃ authorization, c.signer.sign r.method r.url r.parameters = .ok authorization ∧
      Draft.isSendable ⟨r.method, r.url, r.parameters, false, none⟩ authorization = true)
    (pieces : List (List UInt8)) :
    c.Opens r (Course.ofPieces pieces) ⟨200, [], bodyMoments pieces⟩ where
  streaming := hr
  sendable := hsend
  began := rfl
  success := rfl
  quiet := by
    refine ⟨rfl, fun m hm => ?_⟩
    simp only [Course.ofPieces, bodyMoments, List.mem_cons, List.mem_append, List.mem_map,
      List.not_mem_nil, or_false] at hm
    rcases hm with rfl | ⟨bytes, -, rfl⟩ | rfl <;> rfl

/-- An opened stream delivers what follows the beginning of its response. -/
theorem Channel.Opens.stream_eq {c : Channel} {r : Request} {course : Course} {head : ResponseHead}
    (h : c.Opens r course head) (listener : Listener) :
    (c.stream r course listener).result = (deliver listener .start [] head.following).1 ∧
      (c.stream r course listener).messages =
        (deliver listener .start [] head.following).2.messages := by
  obtain ⟨authorization, hsign, hsend⟩ := h.sendable
  simp [stream, call, messagesOf, h.streaming, hsign, hsend, h.quiet.start, h.began, h.success]

/-- What comes of an opened stream is said by the bytes of its body and by whether it ends. -/
theorem Channel.Opens.stream_outcome {c : Channel} {r : Request} {course : Course}
    {head : ResponseHead} (h : c.Opens r course head) {listener : Listener}
    (hl : ∀ seen, (listener seen).cancels = false) :
    let lines := (received head.following).splitOn lineFeed
    let e := c.stream r course listener
    (e.result, e.messages) =
      if isEnded head.following then (.ok (), heard listener (lineMessages lines))
      else (if closesOn listener (lineMessages lines.dropLast) then .ok () else .error .transport,
        heard listener (lineMessages lines.dropLast)) := by
  intro lines e
  have hquiet : ∀ m ∈ head.following, m.cancelled = false := fun m hm =>
    h.quiet.run m ((following_suffix_of_awaitHead h.began).subset hm)
  have hdeliver := deliver_of_quiet hl head.following hquiet .start rfl rfl [] rfl
  have hlines : lines = (splitLines (received head.following)).1 ++
      [(splitLines (received head.following)).2] := splitOn_lineFeed _
  obtain ⟨hresult, hmessages⟩ := h.stream_eq listener
  rw [show e.result = _ from hresult, show e.messages = _ from hmessages, hdeliver]
  simp only [List.nil_append]
  cases hend : isEnded head.following with
  | true =>
      have hoffer : ∀ (d : Delivery) (ls : List (List UInt8)) (l : List UInt8),
          (d.offerAll listener ls).offer listener l = d.offerAll listener (ls ++ [l]) := by
        intro d ls l
        rw [Delivery.offerAll_append]
        rfl
      simp only [if_true, hoffer, ← hlines, (Delivery.offerAll_start listener lines).1]
  | false =>
      have hfinished : lines.dropLast = (splitLines (received head.following)).1 := by
        rw [hlines, List.dropLast_concat]
      have hstart := Delivery.offerAll_start listener (splitLines (received head.following)).1
      simp only [Bool.false_eq_true, if_false, hfinished, hstart.1, hstart.2]

/-- A stream delivers the messages of its body, wherever the network has cut it into pieces, up to
the first one that the listener closes on. If the connection breaks, only lines with an end count. -/
theorem stream_messages_of_body {c : Channel} {r : Request} {course : Course} {head : ResponseHead}
    (h : c.Opens r course head) {listener : Listener}
    (hl : ∀ seen, (listener seen).cancels = false) :
    let lines := (received head.following).splitOn lineFeed
    let e := c.stream r course listener
    (isEnded head.following = true →
      e.result = .ok () ∧ e.messages = heard listener (lineMessages lines)) ∧
    (isEnded head.following = false →
      e.messages = heard listener (lineMessages lines.dropLast) ∧
      e.result = if closesOn listener (lineMessages lines.dropLast) then .ok ()
        else .error .transport) ∧
    ∀ (cut : Course) (begun : ResponseHead), c.Opens r cut begun →
      received begun.following = received head.following →
      isEnded begun.following = isEnded head.following →
      (c.stream r cut listener).result = e.result ∧
      (c.stream r cut listener).messages = e.messages := by
  intro lines e
  have houtcome : (e.result, e.messages) = _ := h.stream_outcome hl
  refine ⟨fun hend => ?_, fun hend => ?_, fun cut begun hcut hbody hend => ?_⟩
  · rw [if_pos hend] at houtcome
    exact Prod.mk.inj houtcome
  · rw [if_neg (by simp [hend])] at houtcome
    exact (Prod.mk.inj houtcome).symm
  · have hother := hcut.stream_outcome hl
    rw [hbody, hend] at hother
    exact Prod.mk.inj (hother.trans houtcome.symm)

/-- Pieces that cut a line end and a character, against the body in one piece, for a listener that
closes on its second message. -/
theorem stream_messages_of_cut_body :
    let c : Channel := ⟨⟨"reader", 1000, 1000, none, false⟩, .constant "token" none false, none⟩
    let r : Request := ⟨.get, "https://example.com/events", [], true⟩
    let listener : Listener := fun seen => ⟨seen.length = 2, false⟩
    let cut := Course.ofPieces [[97, 13], [10, 98, 0xC3], [], [0xA9, 10, 10, 99]]
    let whole := Course.ofPieces [[97, 13, 10, 98, 0xC3, 0xA9, 10, 10, 99]]
    (c.stream r cut listener).messages = ["a", "b\u00E9"] ∧
      (c.stream r whole listener).messages = (c.stream r cut listener).messages := by
  intro c r listener cut whole
  have hsend : ∃ authorization, c.signer.sign r.method r.url r.parameters = .ok authorization ∧
      Draft.isSendable ⟨r.method, r.url, r.parameters, false, none⟩ authorization = true :=
    ⟨"token", rfl, by decide⟩
  have hcut := Channel.opens_ofPieces rfl hsend [[97, 13], [10, 98, 0xC3], [], [0xA9, 10, 10, 99]]
  have hwhole := Channel.opens_ofPieces rfl hsend [[97, 13, 10, 98, 0xC3, 0xA9, 10, 10, 99]]
  have hl : ∀ seen, (listener seen).cancels = false := fun _ => rfl
  have h := stream_messages_of_body hcut hl
  have hbody := received_bodyMoments [[97, 13], [10, 98, 0xC3], [], [0xA9, 10, 10, 99]]
  have hwholeBody := received_bodyMoments [[97, 13, 10, 98, 0xC3, 0xA9, 10, 10, 99]]
  refine ⟨(h.1 hbody.2).2.trans (by decide), ?_⟩
  exact (h.2.2 whole _ hwhole (hwholeBody.1.trans hbody.1.symm) (hwholeBody.2.trans hbody.2.symm)).2

end FeedClient
