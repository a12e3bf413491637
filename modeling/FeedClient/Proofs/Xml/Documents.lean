import FeedClient.Failure.Record
import FeedClient.Proofs.Traversal
import FeedClient.Proofs.Xml.Attributes

/-!
# Documents and their error elements

A document is a list of nodes, and its events are those of the nodes one after
another. Scanning the events finds the outermost error elements of the document
with all that is said below them. Whatever is read and leaves no element open is
the list of events of a document.
-/
namespace FeedClient.Xml

/-- A part of a document. -/
inductive Node where
  | element (name attributes : List Char) (children : List Node)
  | selfClosing (name attributes : List Char)
  | text (cs : List Char)
  | verbatim (cs : List Char)
  | aside

namespace Node

mutual

/-- The events of a node: those of its children between its tags. -/
def events : Node → List Event
  | .element name attributes children =>
    .opening name attributes :: eventsOf children ++ [.closing name]
  | .selfClosing name attributes => [.selfClosing name attributes]
  | .text cs => [.text cs]
  | .verbatim cs => [.verbatim cs]
  | .aside => [.aside]

def eventsOf : List Node → List Event
  | [] => []
  | n :: ns => n.events ++ eventsOf ns

end

mutual

/-- The stretches of text and the verbatim sections of a node, at any depth and in order. -/
def stretches : Node → List Node
  | .element _ _ children => stretchesOf children
  | .text cs => [.text cs]
  | .verbatim cs => [.verbatim cs]
  | .selfClosing .. => []
  | .aside => []

def stretchesOf : List Node → List Node
  | [] => []
  | n :: ns => n.stretches ++ stretchesOf ns

end

mutual

/-- The error elements of a node that are in no other one, in order. -/
def outermostErrors : Node → List Node
  | .element name attributes children =>
    if name = errorName then [.element name attributes children] else outermostErrorsOf children
  | .selfClosing name attributes => if name = errorName then [.selfClosing name attributes] else []
  | .text _ => []
  | .verbatim _ => []
  | .aside => []

def outermostErrorsOf : List Node → List Node
  | [] => []
  | n :: ns => n.outermostErrors ++ outermostErrorsOf ns

end

/-- What a stretch of a document says; a text has to have its references resolved. -/
def said? : Node → Option (List Char)
  | .text cs => unescape? cs
  | .verbatim cs => some cs
  | _ => some []

/-- All that a node says, put together. -/
def message? (n : Node) : Option (List Char) := (n.stretches.mapM said?).map List.flatten

/-- The number of a node's own attribute. -/
def code : Node → Int64
  | .element _ attributes _ => codeOf attributes
  | .selfClosing _ attributes => codeOf attributes
  | _ => 0

/-- What an error element comes to. -/
def errorElement? (n : Node) : Option ErrorElement := n.message?.map fun t => ⟨n.code, t⟩

end Node

section Scanning

mutual

/-- Inside of an error element a node adds what it says, and leaves the depth as it was. -/
theorem scanFrom_inside (n : Node) (e : ErrorElement) (depth : Nat) (rest : List Event) :
    scanFrom (some (e, depth)) (n.events ++ rest) = (n.stretches.mapM Node.said?).bind fun ts =>
      scanFrom (some (⟨e.code, e.message ++ ts.flatten⟩, depth)) rest := by
  cases n with
  | element name attributes children =>
      rw [Node.events, Node.stretches, List.cons_append, List.cons_append, List.append_assoc,
        scanFrom, scanFrom_insideOf children e (depth + 1)]
      rfl
  | selfClosing name attributes => simp [Node.events, Node.stretches, scanFrom]
  | text cs =>
      simp only [Node.events, Node.stretches, List.cons_append, List.nil_append, scanFrom,
        List.mapM_cons, List.mapM_nil, Node.said?]
      cases unescape? cs <;> simp
  | verbatim cs => simp [Node.events, Node.stretches, scanFrom, Node.said?]
  | aside => simp [Node.events, Node.stretches, scanFrom]

theorem scanFrom_insideOf (ns : List Node) (e : ErrorElement) (depth : Nat) (rest : List Event) :
    scanFrom (some (e, depth)) (Node.eventsOf ns ++ rest) =
      ((Node.stretchesOf ns).mapM Node.said?).bind fun ts =>
        scanFrom (some (⟨e.code, e.message ++ ts.flatten⟩, depth)) rest := by
  cases ns with
  | nil => simp [Node.eventsOf, Node.stretchesOf]
  | cons n ns =>
      rw [Node.eventsOf, Node.stretchesOf, List.append_assoc, scanFrom_inside n, List.mapM_append]
      cases n.stretches.mapM Node.said? with
      | none => rfl
      | some ts =>
          rw [Option.bind_some, scanFrom_insideOf ns]
          cases (Node.stretchesOf ns).mapM Node.said? <;> simp

end

/-- An error element is read from its tag to the end of it. -/
theorem scanFrom_error (attributes : List Char) (children : List Node) (rest : List Event) :
    scanFrom none ((Node.element errorName attributes children).events ++ rest) =
      (Node.element errorName attributes children).errorElement?.bind fun e =>
        (scanFrom none rest).map (e :: ·) := by
  rw [Node.events, List.cons_append, List.cons_append, List.append_assoc, scanFrom, if_pos rfl,
    scanFrom_insideOf, Node.errorElement?, Node.message?, Node.stretches]
  cases (Node.stretchesOf children).mapM Node.said? <;> rfl

mutual

/-- Outside of error elements a node gives what its outermost ones come to. -/
theorem scanFrom_outside (n : Node) (rest : List Event) :
    scanFrom none (n.events ++ rest) = (n.outermostErrors.mapM Node.errorElement?).bind fun es =>
      (scanFrom none rest).map (es ++ ·) := by
  cases n with
  | element name attributes children =>
      by_cases hname : name = errorName
      · subst hname
        rw [scanFrom_error, Node.outermostErrors, if_pos rfl, List.mapM_cons]
        cases (Node.element errorName attributes children).errorElement? <;> simp
      · rw [Node.events, List.cons_append, List.cons_append, List.append_assoc, scanFrom,
          if_neg hname, scanFrom_outsideOf children, Node.outermostErrors, if_neg hname]
        rfl
  | selfClosing name attributes =>
      rw [Node.events, Node.outermostErrors, List.cons_append, List.nil_append, scanFrom]
      split
      · simp [Node.errorElement?, Node.message?, Node.stretches, Node.code]
      · simp
  | text cs => simp [Node.events, Node.outermostErrors, scanFrom]
  | verbatim cs => simp [Node.events, Node.outermostErrors, scanFrom]
  | aside => simp [Node.events, Node.outermostErrors, scanFrom]

theorem scanFrom_outsideOf (ns : List Node) (rest : List Event) :
    scanFrom none (Node.eventsOf ns ++ rest) =
      ((Node.outermostErrorsOf ns).mapM Node.errorElement?).bind fun es =>
        (scanFrom none rest).map (es ++ ·) := by
  cases ns with
  | nil => simp [Node.eventsOf, Node.outermostErrorsOf]
  | cons n ns =>
      rw [Node.eventsOf, Node.outermostErrorsOf, List.append_assoc, scanFrom_outside n,
        List.mapM_append]
      cases n.outermostErrors.mapM Node.errorElement? with
      | none => rfl
      | some es =>
          rw [Option.bind_some, scanFrom_outsideOf ns]
          cases (Node.outermostErrorsOf ns).mapM Node.errorElement? <;>
            cases scanFrom none rest <;> simp

end

theorem errorElements?_eventsOf (document : List Node) : errorElements? (Node.eventsOf document) =
    (Node.outermostErrorsOf document).mapM Node.errorElement? := by
  have h := scanFrom_outsideOf document []
  rw [List.append_nil] at h
  rw [errorElements?, h]
  cases (Node.outermostErrorsOf document).mapM Node.errorElement? <;> simp [scanFrom]

theorem said?_eq_none_iff {n : Node} : n.said? = none ↔ ∃ cs, n = .text cs ∧ unescape? cs = none := by
  cases n <;> simp [Node.said?]

theorem errorElement?_eq_none_iff {n : Node} :
    n.errorElement? = none ↔ ∃ cs, .text cs ∈ n.stretches ∧ unescape? cs = none := by
  rw [Node.errorElement?, Option.map_eq_none_iff, Node.message?, Option.map_eq_none_iff,
    mapM_eq_none_iff]
  constructor
  · rintro ⟨s, hs, hnone⟩
    obtain ⟨cs, rfl, hcs⟩ := said?_eq_none_iff.mp hnone
    exact ⟨cs, hs, hcs⟩
  · rintro ⟨cs, hs, hcs⟩
    exact ⟨.text cs, hs, hcs⟩

end Scanning

section Nesting

/-- The events close the open elements one after another, with nodes in front of each end tag and
behind the last one. -/
def Closes : List (List Char) → List Event → Prop
  | [], events => ∃ document, events = Node.eventsOf document
  | name :: openNames, events =>
    ∃ nodes rest, events = Node.eventsOf nodes ++ .closing name :: rest ∧ Closes openNames rest

theorem Closes.cons {openNames : List (List Char)} {events : List Event} (n : Node)
    (h : Closes openNames events) : Closes openNames (n.events ++ events) := by
  cases openNames with
  | nil =>
      obtain ⟨document, rfl⟩ := h
      exact ⟨n :: document, by rw [Node.eventsOf]⟩
  | cons name openNames =>
      obtain ⟨nodes, rest, rfl, hrest⟩ := h
      exact ⟨n :: nodes, rest, by rw [Node.eventsOf, List.append_assoc], hrest⟩

/-- Events that leave nothing open are those of a document. The induction is over the events, with
whatever elements are open before them. -/
theorem closes_of_foldlM_enter? {openNames : List (List Char)} {events : List Event}
    (h : events.foldlM Event.enter? openNames = some []) : Closes openNames events := by
  induction events generalizing openNames with
  | nil =>
      obtain rfl : openNames = [] := Option.some.inj h
      exact ⟨[], rfl⟩
  | cons event events ih =>
      rw [List.foldlM_cons] at h
      cases event with
      | opening name attributes =>
          obtain ⟨nodes, rest, rfl, hrest⟩ := ih h
          have hcons := hrest.cons (.element name attributes nodes)
          simpa [Node.events] using hcons
      | closing name =>
          cases openNames with
          | nil => cases h
          | cons top openNames =>
              by_cases htop : top = name
              · subst htop
                simp only [Event.enter?, if_true] at h
                exact ⟨[], events, rfl, ih h⟩
              · simp only [Event.enter?, if_neg htop] at h
                cases h
      | selfClosing name attributes => exact (ih h).cons (.selfClosing name attributes)
      | text cs => exact (ih h).cons (.text cs)
      | verbatim cs => exact (ih h).cons (.verbatim cs)
      | aside => exact (ih h).cons .aside

mutual

/-- The events of a node leave open what was open before them. -/
theorem foldlM_enter?_events (n : Node) (openNames : List (List Char)) (rest : List Event) :
    (n.events ++ rest).foldlM Event.enter? openNames = rest.foldlM Event.enter? openNames := by
  cases n with
  | element name attributes children =>
      rw [Node.events, List.cons_append, List.cons_append, List.append_assoc, List.foldlM_cons]
      simp only [Event.enter?, Option.bind_eq_bind, Option.bind_some]
      rw [foldlM_enter?_eventsOf children, List.singleton_append, List.foldlM_cons]
      simp [Event.enter?]
  | selfClosing name attributes => rfl
  | text cs => rfl
  | verbatim cs => rfl
  | aside => rfl

theorem foldlM_enter?_eventsOf (ns : List Node) (openNames : List (List Char)) (rest : List Event) :
    (Node.eventsOf ns ++ rest).foldlM Event.enter? openNames =
      rest.foldlM Event.enter? openNames := by
  cases ns with
  | nil => rfl
  | cons n ns =>
      rw [Node.eventsOf, List.append_assoc, foldlM_enter?_events n, foldlM_enter?_eventsOf ns]

end

theorem foldlM_enter?_eq_nil_iff {events : List Event} :
    events.foldlM Event.enter? [] = some [] ↔ ∃ document, events = Node.eventsOf document := by
  constructor
  · exact closes_of_foldlM_enter?
  · rintro ⟨document, rfl⟩
    have h := foldlM_enter?_eventsOf document [] []
    rwa [List.append_nil] at h

end Nesting

section Records

/-- The record of a body with one error element. -/
def recordOf (body : String) (e : ErrorElement) : ErrorRecord :=
  ⟨none, some body, none, none, [⟨Text.trim (String.ofList e.message), none, some e.code, none⟩]⟩

/-- The record of a body that cannot be parsed, or that has no error element or several. -/
def unparsedRecord (body : String) : ErrorRecord :=
  ⟨some "Unable to Parse Response - please examine Detail property", some body,
    some "XML Formatted Error", none, []⟩

theorem ofText_of_read? {body : String} {document : List Node} (hxml : ErrorRecord.isXml body = true)
    (hread : Event.read? body.toList = some (Node.eventsOf document)) :
    ErrorRecord.ofText body =
      match (Node.outermostErrorsOf document).mapM Node.errorElement? with
      | some [e] => recordOf body e
      | _ => unparsedRecord body := by
  rw [ErrorRecord.ofText, if_pos hxml, ErrorRecord.ofXml, hread, Option.bind_some,
    errorElements?_eventsOf]
  rfl

end Records

/-- Scanning the events of a document gives what its outermost error elements come to, in order, and
fails exactly if a text in one of them cannot be read. The events that leave nothing open are those of
documents. A body that is read as a document has the record of its only error element; any other one
says that it cannot be parsed. -/
theorem scan_of_document :
    (∀ document, errorElements? (Node.eventsOf document) =
      (Node.outermostErrorsOf document).mapM Node.errorElement?) ∧
    (∀ document, errorElements? (Node.eventsOf document) = none ↔
      ∃ n ∈ Node.outermostErrorsOf document, ∃ cs, .text cs ∈ n.stretches ∧ unescape? cs = none) ∧
    (∀ (attributes : List Attribute) (tail : List Char), (∀ c ∈ tail, isXmlSpace c = true) →
      codeOf (attributes.flatMap Attribute.written ++ tail) = Attribute.code attributes) ∧
    (∀ events : List Event, events.foldlM Event.enter? [] = some [] ↔
      ∃ document, events = Node.eventsOf document) ∧
    (∀ body document, ErrorRecord.isXml body = true →
      Event.read? body.toList = some (Node.eventsOf document) →
        (∀ e, (Node.outermostErrorsOf document).mapM Node.errorElement? = some [e] →
          ErrorRecord.ofText body = recordOf body e) ∧
        ((∀ e, (Node.outermostErrorsOf document).mapM Node.errorElement? ≠ some [e]) →
          ErrorRecord.ofText body = unparsedRecord body)) ∧
    ∀ body, ErrorRecord.isXml body = true → Event.read? body.toList = none →
      ErrorRecord.ofText body = unparsedRecord body := by
  refine ⟨errorElements?_eventsOf, fun document => ?_,
    fun attributes tail htail => Attribute.codeOf_written attributes htail,
    fun events => foldlM_enter?_eq_nil_iff, fun body document hxml hread => ?_,
    fun body hxml hread => ?_⟩
  · rw [errorElements?_eventsOf, mapM_eq_none_iff]
    simp only [errorElement?_eq_none_iff]
  · rw [ofText_of_read? hxml hread]
    constructor
    · intro e he
      rw [he]
    · intro hnot
      split
      · rename_i e he
        exact absurd he (hnot e)
      · rfl
  · rw [ErrorRecord.ofText, if_pos hxml, ErrorRecord.ofXml, hread]
    rfl

/-- An error element with markup, a reference, another error element, a verbatim section and a
comment inside, and a text behind it. Then a document with two error elements, and a body that is cut
off. -/
theorem scan_of_document_nested :
    let body := "<?xml version='1.0'?><all><error code=\" 7 \">a<b>&amp;</b><error>c</error>" ++
      "<![CDATA[<d>]]><!-- e --></error>f</all>"
    let several := "<?xml version='1.0'?><error>a</error><error>b</error>"
    let unfinished := "<?xml version='1.0'?><error"
    let title := "Unable to Parse Response - please examine Detail property"
    Event.read? body.toList = some (Node.eventsOf [.aside, .element "all".toList [] [
      .element errorName " code=\" 7 \"".toList [.text ['a'], .element ['b'] [] [.text "&amp;".toList],
        .element errorName [] [.text ['c']], .verbatim "<d>".toList, .aside], .text ['f']]]) ∧
    codeOf " code=\" 7 \"".toList = 7 ∧
    ErrorRecord.ofText body = ⟨none, some body, none, none, [⟨"a&c<d>", none, some 7, none⟩]⟩ ∧
    ErrorRecord.ofText several = ⟨some title, some several, some "XML Formatted Error", none, []⟩ ∧
    ErrorRecord.ofText unfinished =
      ⟨some title, some unfinished, some "XML Formatted Error", none, []⟩ := by
  intro body several unfinished title
  obtain ⟨-, -, hcode, -, hrecord, hunread⟩ := scan_of_document
  have hread : Event.read? body.toList = some (Node.eventsOf [.aside, .element "all".toList [] [
      .element errorName " code=\" 7 \"".toList [.text ['a'], .element ['b'] [] [.text "&amp;".toList],
        .element errorName [] [.text ['c']], .verbatim "<d>".toList, .aside], .text ['f']]]) := by
    decide +kernel
  have hseveral : Event.read? several.toList = some (Node.eventsOf [.aside,
      .element errorName [] [.text ['a']], .element errorName [] [.text ['b']]]) := by decide +kernel
  let a : Attribute := ⟨[' '], codeName, [], [], '"', " 7 ".toList, List.all_eq_true.mp (by decide),
    List.forall_mem_nil _, List.forall_mem_nil _, by decide, List.all_eq_true.mp (by decide), by decide,
    by decide⟩
  have hseven : codeOf " code=\" 7 \"".toList = 7 := by
    have h := hcode [a] [] (List.forall_mem_nil _)
    exact h.trans (by decide +kernel)
  have hnested := (hrecord body _ (by decide +kernel) hread).1 ⟨7, "a&c<d>".toList⟩ (by decide +kernel)
  refine ⟨hread, hseven, hnested.trans (by decide +kernel), ?_, ?_⟩
  · have htwo : ((Node.outermostErrorsOf [.aside, .element errorName [] [.text ['a']],
        .element errorName [] [.text ['b']]]).mapM Node.errorElement?).map List.length = some 2 := by
      decide +kernel
    refine (hrecord several _ (by decide +kernel) hseveral).2 fun e he => ?_
    rw [he] at htwo
    cases htwo
  · exact hunread unfinished (by decide +kernel) (by decide +kernel)

end FeedClient.Xml
