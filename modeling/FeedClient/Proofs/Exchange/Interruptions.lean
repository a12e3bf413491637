import FeedClient.Proofs.Exchange.Calls

/-!
# Streams that their listener cancels

A stream looks at its signal between two pieces of its body. It delivers every
line that a piece ends before it looks again. So a listener that fires the signal
still hears what is left of the piece at hand and nothing of a later one. The
message that it fires the signal on is its last one exactly if that message is the
last one of its piece.
-/
namespace FeedClient

/-- The connection has not come to an end. -/
def Moment.GoesOn (m : Moment) : Prop := m.arrival = none ∨ ∃ bytes, m.arrival = some (.piece bytes)

theorem received_append {waited : List Moment} (hw : ∀ w ∈ waited, w.GoesOn) (ms : List Moment) :
    received (waited ++ ms) = received waited ++ received ms := by
  induction waited with
  | nil => rfl
  | cons w waited ih =>
      obtain ⟨hfirst, hrest⟩ := List.forall_mem_cons.mp hw
      have htail := ih hrest
      rcases hfirst with h | ⟨bytes, h⟩
      · simp only [List.cons_append, received, h, htail]
      · simp only [List.cons_append, received, h, htail, List.append_assoc]

theorem isEnded_append {waited : List Moment} (hw : ∀ w ∈ waited, w.GoesOn) (ms : List Moment) :
    isEnded (waited ++ ms) = isEnded ms := by
  induction waited with
  | nil => rfl
  | cons w waited ih =>
      obtain ⟨hfirst, hrest⟩ := List.forall_mem_cons.mp hw
      have htail := ih hrest
      rcases hfirst with h | ⟨bytes, h⟩
      · simp only [List.cons_append, isEnded, h, htail]
      · simp only [List.cons_append, isEnded, h, htail]

/-- What follows the end of a connection adds nothing to the body. -/
theorem goesOn_or_received_append (waited : List Moment) :
    (∀ w ∈ waited, w.GoesOn) ∨ ∀ ms, received (waited ++ ms) = received waited ∧
      isEnded (waited ++ ms) = isEnded waited := by
  induction waited with
  | nil => exact .inl (List.forall_mem_nil _)
  | cons w waited ih =>
      cases ha : w.arrival with
      | none =>
          refine ih.imp (fun h => List.forall_mem_cons.mpr ⟨.inl ha, h⟩) fun h ms => ?_
          simp only [List.cons_append, received, isEnded, ha, h ms, and_self]
      | some arrival =>
          cases arrival with
          | piece bytes =>
              refine ih.imp (fun h => List.forall_mem_cons.mpr ⟨.inr ⟨bytes, ha⟩, h⟩) fun h ms => ?_
              simp only [List.cons_append, received, isEnded, ha, h ms, and_self]
          | head => exact .inr fun ms => by simp [received, isEnded, ha]
          | ended => exact .inr fun ms => by simp [received, isEnded, ha]
          | broken => exact .inr fun ms => by simp [received, isEnded, ha]

/-- The messages of the lines that have come to an end. The last line ends with the body. -/
def endedMessages (ms : List Moment) : List String :=
  let lines := (received ms).splitOn lineFeed
  lineMessages (if isEnded ms then lines else lines.dropLast)

theorem endedMessages_eq (ms : List Moment) :
    endedMessages ms = if isEnded ms
      then lineMessages ((splitLines (received ms)).1 ++ [(splitLines (received ms)).2])
      else lineMessages (splitLines (received ms)).1 := by
  simp only [endedMessages, splitOn_lineFeed, List.dropLast_concat]
  split <;> rfl

theorem lineMessages_append (xs ys : List (List UInt8)) :
    lineMessages (xs ++ ys) = lineMessages xs ++ lineMessages ys := by
  simp [lineMessages]

theorem endedMessages_of_goesOn {waited : List Moment} (hw : ∀ w ∈ waited, w.GoesOn) :
    endedMessages waited = lineMessages (splitLines (received waited)).1 := by
  have hopen : isEnded waited = false := by
    have h := isEnded_append hw []
    rwa [List.append_nil] at h
  rw [endedMessages_eq, hopen, if_neg Bool.false_ne_true]

/-- The lines that a moment ends, behind an unfinished one. -/
def Moment.endedLines (m : Moment) (unfinished : List UInt8) : List (List UInt8) :=
  match m.arrival with
  | some (.piece bytes) => (splitLines (unfinished ++ bytes)).1
  | some .ended => [unfinished]
  | _ => []

theorem endedMessages_concat {waited : List Moment} (hw : ∀ w ∈ waited, w.GoesOn) (m : Moment) :
    endedMessages (waited ++ [m]) = lineMessages ((splitLines (received waited)).1 ++
      m.endedLines (splitLines (received waited)).2) := by
  rw [endedMessages_eq, isEnded_append hw, received_append hw, Moment.endedLines]
  cases ha : m.arrival with
  | none => simp [received, isEnded, ha]
  | some arrival =>
      cases arrival with
      | piece bytes =>
          have hpiece : received [m] = bytes := by simp [received, ha]
          have hopen : isEnded [m] = false := by simp [isEnded, ha]
          rw [hpiece, hopen, if_neg Bool.false_ne_true, splitLines_append]
      | ended => simp [received, isEnded, ha]
      | head => simp [received, isEnded, ha]
      | broken => simp [received, isEnded, ha]

/-- Messages that have come do not change by what follows. -/
theorem endedMessages_prefix (waited ms : List Moment) :
    endedMessages waited <+: endedMessages (waited ++ ms) := by
  rcases goesOn_or_received_append waited with hw | hw
  · have hlines : (splitLines (received waited)).1 <+: (splitLines (received (waited ++ ms))).1 := by
      rw [received_append hw, splitLines_append]
      exact List.prefix_append _ _
    obtain ⟨more, hmore⟩ := hlines
    rw [endedMessages_of_goesOn hw, endedMessages_eq, ← hmore]
    split
    · rw [List.append_assoc, lineMessages_append]
      exact List.prefix_append _ _
    · rw [lineMessages_append]
      exact List.prefix_append _ _
  · simp only [endedMessages, hw ms, List.prefix_refl]

/-- A connection that brings further messages has not come to an end before. -/
theorem goesOn_of_endedMessages_lt {waited ms : List Moment}
    (h : (endedMessages waited).length < (endedMessages (waited ++ ms)).length) :
    ∀ w ∈ waited, w.GoesOn := by
  rcases goesOn_or_received_append waited with hw | hw
  · exact hw
  · simp only [endedMessages, hw ms, lt_irrefl] at h

namespace Delivery

theorem length_messages_offerAll_le (listener : Listener) (d : Delivery)
    (lines : List (List UInt8)) :
    (d.offerAll listener lines).messages.length ≤ d.messages.length + (lineMessages lines).length := by
  induction lines generalizing d with
  | nil => simp [offerAll, lineMessages]
  | cons line lines ih =>
      have hline : (d.offer listener line).messages.length ≤
          d.messages.length + ([line].filterMap message?).length := by
        rw [offer]
        split
        · omega
        · cases hm : message? line with
          | none => simp
          | some m => simp [hm]
      have hrest := ih (d.offer listener line)
      have hsplit : lineMessages (line :: lines) = [line].filterMap message? ++ lineMessages lines := by
        rw [← filterMap_message?, ← filterMap_message?, ← List.filterMap_append]
        rfl
      rw [hsplit, List.length_append]
      have hstep : d.offerAll listener (line :: lines) = (d.offer listener line).offerAll listener lines :=
        rfl
      rw [hstep]
      omega

/-- What the listener did to the signal is not undone. -/
theorem cancelled_offerAll_of_cancelled {listener : Listener} {d : Delivery} (hx : d.cancelled = true)
    (lines : List (List UInt8)) : (d.offerAll listener lines).cancelled = true := by
  induction lines generalizing d with
  | nil => exact hx
  | cons line lines ih =>
      apply ih
      rw [offer]
      split
      · exact hx
      · cases message? line with
        | none => exact hx
        | some m => simp [hx]

/-- A listener that fires the signal on a message leaves it fired, if the delivery is still open at
the end. The induction is on the lines and carries the messages delivered before. -/
theorem cancelled_offerAll {listener : Listener} {lines : List (List UInt8)} {d : Delivery}
    (hc : d.closed = false) (hopen : (d.offerAll listener lines).closed = false) {k : Nat}
    (hk : k < (lineMessages lines).length)
    (hl : (listener (d.messages ++ (lineMessages lines).take (k + 1))).cancels = true) :
    (d.offerAll listener lines).cancelled = true := by
  rw [← filterMap_message?] at hk hl
  induction lines generalizing d k with
  | nil => simp at hk
  | cons line lines ih =>
      have hstep : d.offerAll listener (line :: lines) = (d.offer listener line).offerAll listener lines :=
        rfl
      rw [hstep] at hopen ⊢
      have hnext : (d.offer listener line).closed = false := by
        by_contra hclosed
        rw [Bool.not_eq_false] at hclosed
        rw [offerAll_of_closed listener hclosed, hclosed] at hopen
        cases hopen
      rw [List.filterMap_cons] at hk hl
      cases hm : message? line with
      | none =>
          have hsame : d.offer listener line = d := by rw [offer, hc, hm]; rfl
          rw [hsame] at hopen ⊢
          simp only [hm] at hk hl
          exact ih hc hopen hk hl
      | some m =>
          have hoffer : d.offer listener line = ⟨d.messages ++ [m], (listener (d.messages ++ [m])).closes,
              d.cancelled || (listener (d.messages ++ [m])).cancels⟩ := by rw [offer, hc, hm]; rfl
          simp only [hm, List.length_cons, List.take_succ_cons] at hk hl
          cases k with
          | zero =>
              rw [List.take_zero] at hl
              apply cancelled_offerAll_of_cancelled
              rw [hoffer, hl, Bool.or_true]
          | succ k =>
              apply ih hnext hopen (Nat.lt_of_succ_lt_succ hk)
              rw [hoffer, List.append_assoc, List.singleton_append]
              exact hl

end Delivery

theorem deliver_of_cancelled {listener : Listener} {d : Delivery} (hx : d.cancelled = true)
    (unfinished : List UInt8) (ms : List Moment) :
    deliver listener d unfinished ms = (.error .cancelled, d) := by
  cases ms with
  | nil => rw [deliver, hx]; rfl
  | cons m ms => rw [deliver, hx, Bool.or_true]; rfl

/-- A stream either stops before some moments, with no message but those of the lines that ended
before, or it comes to them with those lines delivered. The induction is on the moments before and
carries that the unfinished line has no line feed. -/
theorem deliver_append (listener : Listener) {waited : List Moment} (hw : ∀ w ∈ waited, w.GoesOn)
    (ms : List Moment) (d : Delivery) (unfinished : List UInt8)
    (hu : splitLines unfinished = ([], unfinished)) :
    let lines := splitLines (unfinished ++ received waited)
    (deliver listener d unfinished (waited ++ ms)).2.messages.length ≤
        d.messages.length + (lineMessages lines.1).length ∨
      deliver listener d unfinished (waited ++ ms) =
        deliver listener (d.offerAll listener lines.1) lines.2 ms := by
  induction waited generalizing d unfinished with
  | nil =>
      simp only [received, List.append_nil, List.nil_append, hu]
      exact .inr rfl
  | cons w waited ih =>
      obtain ⟨hfirst, hrest⟩ := List.forall_mem_cons.mp hw
      intro lines
      rw [List.cons_append, deliver]
      by_cases hstop : (w.cancelled || d.cancelled) = true
      · rw [if_pos hstop]
        exact .inl (Nat.le_add_right _ _)
      · rw [if_neg hstop]
        rcases hfirst with ha | ⟨bytes, ha⟩
        · have hlines : lines = splitLines (unfinished ++ received waited) := by
            simp only [lines, received, ha]
          simp only [ha, hlines]
          exact ih hrest d unfinished hu
        · have hlines : lines = splitLines (unfinished ++ bytes ++ received waited) := by
            simp only [lines, received, ha, List.append_assoc]
          have hnext := splitLines_unfinished (unfinished ++ bytes)
          rw [hlines, splitLines_append]
          simp only [ha]
          generalize splitLines (unfinished ++ bytes) = first at hnext ⊢
          have hlength := Delivery.length_messages_offerAll_le listener d first.1
          rw [lineMessages_append, List.length_append]
          by_cases hclosed : (d.offerAll listener first.1).closed = true
          · rw [if_pos hclosed]
            exact .inl (hlength.trans (by omega))
          · rw [if_neg hclosed, Delivery.offerAll_append]
            refine (ih hrest _ first.2 hnext).imp_left fun h => h.trans ?_
            omega

/-- A listener hears all messages, or some of them of which it closes on the last. -/
theorem heard_eq_or_closes (listener : Listener) (messages : List String) :
    heard listener messages = messages ∨
      heard listener messages <+: messages ∧ (listener (heard listener messages)).closes = true := by
  unfold heard
  cases h : messages.inits.tail.find? fun seen => (listener seen).closes with
  | none => exact .inl rfl
  | some seen =>
      have hmem : seen ∈ messages.inits := List.mem_of_mem_tail (List.mem_of_find?_eq_some h)
      have hcloses : (listener seen).closes = true := by simpa using List.find?_some h
      exact .inr ⟨(List.mem_inits seen messages).mp hmem, hcloses⟩

/-- A stream is opened, whatever its signal does later: its request is sent and a success begins. -/
structure Channel.Delivers (c : Channel) (r : Request) (course : Course) (head : ResponseHead) :
    Prop where
  streaming : r.streaming = true
  answers : c.Answers r.streamDraft course head
  success : Status.isFailure head.status = false

theorem Channel.Delivers.stream_eq {c : Channel} {r : Request} {course : Course}
    {head : ResponseHead} (h : c.Delivers r course head) (listener : Listener) :
    (c.stream r course listener).result = (deliver listener .start [] head.following).1 ∧
      (c.stream r course listener).messages =
        (deliver listener .start [] head.following).2.messages := by
  obtain ⟨⟨authorization, hsends⟩, hbegins⟩ := h.answers
  rw [stream_of_streaming h.streaming, hsends.call_of_begins hbegins, messagesOf, h.success]
  exact ⟨rfl, rfl⟩

section Steps

variable {listener : Listener} {d : Delivery} {unfinished : List UInt8} {m : Moment}
  {rest : List Moment}

theorem deliver_stopped (h : (m.cancelled || d.cancelled) = true) :
    deliver listener d unfinished (m :: rest) = (.error .cancelled, d) := by
  rw [deliver, if_pos h]

theorem deliver_piece (h : (m.cancelled || d.cancelled) = false) {bytes : List UInt8}
    (ha : m.arrival = some (.piece bytes)) :
    deliver listener d unfinished (m :: rest) =
      if (d.offerAll listener (splitLines (unfinished ++ bytes)).1).closed
      then (.ok (), d.offerAll listener (splitLines (unfinished ++ bytes)).1)
      else deliver listener (d.offerAll listener (splitLines (unfinished ++ bytes)).1)
        (splitLines (unfinished ++ bytes)).2 rest := by
  simp only [deliver, h, ha, Bool.false_eq_true, if_false]

theorem deliver_ended (h : (m.cancelled || d.cancelled) = false) (ha : m.arrival = some .ended) :
    deliver listener d unfinished (m :: rest) = (.ok (), d.offerAll listener [unfinished]) := by
  have hlast : (if unfinished.isEmpty then d else d.offer listener unfinished) =
      d.offerAll listener [unfinished] := by
    cases unfinished with
    | nil => exact (Delivery.offer_nil listener d).symm
    | cons b bs => rfl
  simp only [deliver, h, ha, Bool.false_eq_true, if_false, hlast]

end Steps

section Cancelling

variable {listener : Listener} {waited rest : List Moment} {m : Moment} {k : Nat}

/-- The step of the moment that ends a message on which the listener fires the signal. -/
theorem deliver_cons_of_cancelling {lines : List (List UInt8)} {unfinished : List UInt8}
    (hk : k < (deliver listener (.offerAll listener .start lines) unfinished (m :: rest)).2.messages.length)
    (hl : listener ((lineMessages (lines ++ m.endedLines unfinished)).take (k + 1)) = ⟨false, true⟩)
    (hbefore : (lineMessages lines).length ≤ k)
    (hend : k < (lineMessages (lines ++ m.endedLines unfinished)).length) :
    let d := Delivery.start.offerAll listener (lines ++ m.endedLines unfinished)
    deliver listener (.offerAll listener .start lines) unfinished (m :: rest) =
      (if d.closed ∨ isEnded [m] then .ok () else .error .cancelled, d) := by
  intro d
  have hall : d = (Delivery.start.offerAll listener lines).offerAll listener (m.endedLines unfinished) :=
    Delivery.offerAll_append listener .start lines _
  have hgoes : (m.cancelled || (Delivery.start.offerAll listener lines).cancelled) = false := by
    by_contra hstop
    rw [Bool.not_eq_false] at hstop
    have hlength := Delivery.length_messages_offerAll_le listener .start lines
    rw [deliver_stopped hstop] at hk
    change k < (Delivery.start.offerAll listener lines).messages.length at hk
    have hnone : Delivery.start.messages.length = 0 := rfl
    omega
  cases ha : m.arrival with
  | none => simp [Moment.endedLines, ha] at hend; omega
  | some arrival =>
      cases arrival with
      | head => simp [Moment.endedLines, ha] at hend; omega
      | broken => simp [Moment.endedLines, ha] at hend; omega
      | ended =>
          have hlines : m.endedLines unfinished = [unfinished] := by rw [Moment.endedLines, ha]
          have hends : isEnded [m] = true := by simp [isEnded, ha]
          rw [deliver_ended hgoes ha, hall, hlines, if_pos (.inr hends)]
      | piece bytes =>
          have hlines : m.endedLines unfinished = (splitLines (unfinished ++ bytes)).1 := by
            rw [Moment.endedLines, ha]
          have hopenBody : isEnded [m] = false := by simp [isEnded, ha]
          rw [deliver_piece hgoes ha, ← hlines, ← hall, hopenBody]
          by_cases hclosed : d.closed = true
          · simp only [hclosed, if_true, true_or]
          · have hstill : d.closed = false := by simpa using hclosed
            have hfired : d.cancelled = true := by
              apply Delivery.cancelled_offerAll rfl hstill hend
              change (listener ((lineMessages _).take (k + 1))).cancels = true
              rw [hl]
            simp only [hstill, Bool.false_eq_true, if_false, or_self]
            exact deliver_of_cancelled hfired _ rest

/-- If the listener hears a message and fires the signal on it without closing, the stream ends with
the moment that ends the message. -/
theorem deliver_of_cancelling
    (hk : k < (deliver listener .start [] (waited ++ m :: rest)).2.messages.length)
    (hl : listener ((endedMessages (waited ++ [m])).take (k + 1)) = ⟨false, true⟩)
    (hbefore : (endedMessages waited).length ≤ k) (hend : k < (endedMessages (waited ++ [m])).length) :
    let ended := endedMessages (waited ++ [m])
    (deliver listener .start [] (waited ++ m :: rest)).2.messages = heard listener ended ∧
      (deliver listener .start [] (waited ++ m :: rest)).1 =
        if closesOn listener ended ∨ isEnded (waited ++ [m]) then .ok () else .error .cancelled := by
  have hw : ∀ w ∈ waited, w.GoesOn := goesOn_of_endedMessages_lt (hbefore.trans_lt hend)
  have hdeliver := deliver_append listener hw (m :: rest) .start [] rfl
  rw [endedMessages_of_goesOn hw] at hbefore
  rw [endedMessages_concat hw] at hl hend ⊢
  simp only [List.nil_append] at hdeliver
  rcases hdeliver with hstopped | hreached
  · have hnone : Delivery.start.messages.length = 0 := rfl
    omega
  · rw [hreached] at hk ⊢
    rw [deliver_cons_of_cancelling hk hl hbefore hend, isEnded_append hw]
    obtain ⟨hmessages, hclosed⟩ := Delivery.offerAll_start listener
      ((splitLines (received waited)).1 ++ m.endedLines (splitLines (received waited)).2)
    rw [hclosed]
    exact ⟨hmessages, rfl⟩

end Cancelling

/-- A listener that fires the signal of its stream on a message and goes on still hears the messages
that come to their end together with it, up to one that it closes on, and then the stream stops. So
no message follows exactly if no other ends later with the same piece. -/
theorem stream_messages_of_cancelling {c : Channel} {r : Request} {course : Course}
    {head : ResponseHead} (h : c.Delivers r course head) {listener : Listener} {k : Nat}
    (hk : k < (c.stream r course listener).messages.length)
    (hl : listener ((endedMessages head.following).take (k + 1)) = ⟨false, true⟩)
    {waited rest : List Moment} {m : Moment} (hf : head.following = waited ++ m :: rest)
    (hbefore : (endedMessages waited).length ≤ k) (hend : k < (endedMessages (waited ++ [m])).length) :
    let body := endedMessages head.following
    let ended := endedMessages (waited ++ [m])
    let e := c.stream r course listener
    ended <+: body ∧
    e.messages = heard listener ended ∧
    e.result = (if closesOn listener ended ∨ isEnded (waited ++ [m]) then .ok ()
      else .error .cancelled) ∧
    (e.messages = body.take (k + 1) ↔ ended.length = k + 1) := by
  intro body ended e
  have hfirst : ended <+: body := by
    have hp := endedMessages_prefix (waited ++ [m]) rest
    rwa [List.append_assoc, List.singleton_append, ← hf] at hp
  have htake : body.take (k + 1) = ended.take (k + 1) := by
    obtain ⟨later, hlater⟩ := hfirst
    rw [← hlater, List.take_append_of_le_length hend]
  obtain ⟨hresult, hmessages⟩ := h.stream_eq listener
  rw [hmessages, hf] at hk
  obtain ⟨hheard, hends⟩ := deliver_of_cancelling hk (htake ▸ hl) hbefore hend
  have heard_eq : e.messages = heard listener ended := by
    rw [← hheard, ← hf]
    exact hmessages
  refine ⟨hfirst, heard_eq, ?_, ?_⟩
  · rw [← hends, ← hf]
    exact hresult
  · rw [heard_eq, htake]
    have hlong : k < (heard listener ended).length := by rwa [hheard] at hk
    have hlonger : k < ended.length := hend
    rcases heard_eq_or_closes listener ended with hall | ⟨hpart, hcloses⟩
    · rw [hall]
      constructor
      · intro htaken
        have hlength := congrArg List.length htaken
        rw [List.length_take] at hlength
        omega
      · intro hlength
        rw [← hlength, List.take_length]
    · have hne : heard listener ended ≠ ended.take (k + 1) := by
        intro heq
        rw [heq, ← htake, hl] at hcloses
        cases hcloses
      have hshort : ended.length ≠ k + 1 := by
        intro hlength
        apply hne
        rw [hpart.eq_of_length_le (by omega), ← hlength, List.take_length]
      exact iff_of_false hne hshort

/-- The listener fires the signal on its second message, which the second piece ends together with a
third. The third is heard, and no other. -/
theorem stream_messages_of_cancelling_second :
    let c : Channel := ⟨⟨"reader", 1000, 1000, none, false⟩, .constant "token" none false, none⟩
    let r : Request := ⟨.get, "https://example.com/events", [], true⟩
    let listener : Listener := fun seen => ⟨false, seen.length = 2⟩
    let course := Course.ofPieces [[97, 10, 98], [99, 10, 100, 10, 101], [10, 102, 10]]
    (c.stream r course listener).messages = ["a", "bc", "d"] ∧
      (c.stream r course listener).result = .error .cancelled := by
  intro c r listener course
  let pieces : List (List UInt8) := [[97, 10, 98], [99, 10, 100, 10, 101], [10, 102, 10]]
  let head : ResponseHead := ⟨200, [], bodyMoments pieces⟩
  have h : c.Delivers r course head :=
    ⟨rfl, ⟨⟨"token", rfl, rfl, by decide⟩, awaitHead_eq_ok_iff.mp (rfl : awaitHead 1000 _ = _)⟩, rfl⟩
  have hheard : 1 < (c.stream r course listener).messages.length := by
    rw [(h.stream_eq listener).2]
    decide
  have hcut : head.following = (bodyMoments pieces).take 1 ++
      ⟨false, some (.piece [99, 10, 100, 10, 101]), false⟩ :: (bodyMoments pieces).drop 2 := rfl
  obtain ⟨-, hmessages, hresult, -⟩ :=
    stream_messages_of_cancelling h hheard (by decide) hcut (by decide) (by decide)
  exact ⟨hmessages.trans (by decide), hresult.trans rfl⟩

/-- The same lines in one piece and in two, for a listener that fires the signal on every message: it
hears both in the first case and one in the second. -/
theorem stream_hears_on_behind_signal :
    let c : Channel := ⟨⟨"reader", 1000, 1000, none, false⟩, .constant "token" none false, none⟩
    let r : Request := ⟨.get, "https://example.com/events", [], true⟩
    let listener : Listener := fun _ => ⟨false, true⟩
    (c.stream r (.ofPieces [[97, 10, 98, 10]]) listener).messages = ["a", "b"] ∧
      (c.stream r (.ofPieces [[97, 10], [98, 10]]) listener).messages = ["a"] := by
  decide

end FeedClient
