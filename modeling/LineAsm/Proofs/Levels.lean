import LineAsm.Proofs.Bodies
import LineAsm.Proofs.Conditionals

/-!
# The limit of nesting

Loops and conditionals find their bodies in different ways, but both hand them to the same reader,
which counts the levels. So the limit does not depend on which headers are nested: up to
`maxNesting` of them are read around a statement, and with more the one behind the last level is a
fault, whatever stands inside it.

Results:
* `Header.around header body`: the text of a header in front of a body.
* `Header.read_around`: it is read as this header, in front of any body and by any reader of bodies.
* `decode_inside`: headers around a text, with as many levels more as there are headers.
* `nesting_limit_is_exact`: the limit, for every list of headers.
-/
namespace LineAsm

open Text

/-! ## Headers as texts -/

namespace Header

def spelling : Header → String
  | .times count => "loop for " ++ count.render
  | .whileTrue c => "loop while " ++ c.render
  | .doWhile c => "loop do-while " ++ c.render
  | .ifTrue c => "if " ++ c.render ++ " then"

/-- The text of a header in front of a body. -/
def around (header : Header) (body : String) : String := header.spelling ++ " " ++ body

/-- The form that reports what is wrong behind a header. -/
def form : Header → Form
  | .times _ => .loop .times
  | .whileTrue _ => .loop .whileTrue
  | .doWhile _ => .loop .doWhile
  | .ifTrue _ => .conditional

/-- Headers with grammatical names and keys, but for conditionals that end their condition in a
register `then`. -/
def isReadable : Header → Bool
  | .ifTrue (.compare lhs _ rhs) =>
    lhs.isGrammatical && rhs.isGrammatical && decide (rhs ≠ thenOperand)
  | header => header.isGrammatical

variable {header : Header} {body : String}

theorem isGrammatical_of_isReadable (h : header.isReadable = true) :
    header.isGrammatical = true := by
  unfold isReadable at h
  split at h
  · simp only [Bool.and_eq_true] at h
    simp [isGrammatical, Condition.isGrammatical, h.1.1, h.1.2]
  · exact h

/-- A conditional in front of a body, which is left to any reader of bodies. -/
theorem read_conditional {c : Condition} (hc : c.isGrammatical = true)
    (hthen : ∀ lhs cmp, c ≠ .compare lhs cmp thenOperand) (hbody : IsBodyText body.toList)
    (nested : Form → List Char → Except Fault Statement) {text : String}
    (htext : text.toList =
      ifWord ++ ' ' :: (c.render.toList ++ ' ' :: (thenWord ++ ' ' :: body.toList))) :
    (Shape.of text.toList).decode nested text =
      some (.orFault text ((nested .conditional body.toList).map (.block text (.ifTrue c)))) := by
  have hcut := shortestCondition?_render hc hthen (conditionTail?_body hbody.isRest hbody.trimmed)
  rw [htext, Shape.of_if ((Condition.isRest_render hc).head_append _) hcut]
  simp only [Shape.decode, decodeConditional, Condition.parse_render hc]
  rfl

/-- **One header.** In front of any body a header is read as what it is, and the body is left to any
reader of bodies. -/
theorem read_around (h : header.isReadable = true) (hbody : IsBodyText body.toList)
    (nested : Form → List Char → Except Fault Statement) :
    (Shape.of (header.around body).toList).decode nested (header.around body) =
      some (.orFault (header.around body)
        ((nested header.form body.toList).map (.block (header.around body) header))) := by
  have hgrammatical := isGrammatical_of_isReadable h
  have hloop : lowerCase "loop".toList = "loop" := by decide
  cases header with
  | times x =>
    have hkind : lowerCase "for".toList = LoopKind.times.name := by decide
    exact read_spelled hgrammatical rfl hloop hkind hbody (by simp [around, spelling]) nested
  | whileTrue c =>
    have hkind : lowerCase "while".toList = LoopKind.whileTrue.name := by decide
    exact read_spelled hgrammatical rfl hloop hkind hbody (by simp [around, spelling]) nested
  | doWhile c =>
    have hkind : lowerCase "do-while".toList = LoopKind.doWhile.name := by decide
    exact read_spelled hgrammatical rfl hloop hkind hbody (by simp [around, spelling]) nested
  | ifTrue c =>
    have hthen : ∀ lhs cmp, c ≠ .compare lhs cmp thenOperand := by
      rintro lhs cmp rfl
      simp [isReadable] at h
    exact read_conditional hgrammatical hthen hbody nested
      (by simp [around, spelling, ifWord, thenWord])

/-- The text of a header starts with a letter and is on one line. -/
theorem spelling_line (h : header.isGrammatical = true) :
    StartsWithLetter header.spelling.toList ∧ isOneLine header.spelling.toList = true := by
  cases header with
  | times x =>
    have hx := isOneLine_iff.1 (Operand.isToken_render h).isRest.oneLine
    exact ⟨⟨'l', _, by simp [spelling]; rfl, by decide⟩, by simp [spelling, isOneLine_iff, hx]⟩
  | whileTrue c | doWhile c =>
    have hc := isOneLine_iff.1 (Condition.isRest_render h).oneLine
    exact ⟨⟨'l', _, by simp [spelling]; rfl, by decide⟩, by simp [spelling, isOneLine_iff, hc]⟩
  | ifTrue c =>
    have hc := isOneLine_iff.1 (Condition.isRest_render h).oneLine
    exact ⟨⟨'i', _, by simp [spelling]; rfl, by decide⟩, by simp [spelling, isOneLine_iff, hc]⟩

/-- A header in front of a body can itself stand behind a header. -/
theorem isBodyText_around (h : header.isGrammatical = true) (hbody : IsBodyText body.toList) :
    IsBodyText (header.around body).toList := by
  obtain ⟨hletter, hline⟩ := spelling_line h
  have htext : (header.around body).toList = header.spelling.toList ++ ' ' :: body.toList := by
    simp [around]
  rw [htext]
  refine ⟨hbody.trim_append ⟨hletter.ne_nil, hletter.head_not_blank, hline⟩, ?_, ?_⟩
  · simp [isOneLine_iff, isOneLine_iff.1 hline, isOneLine_iff.1 hbody.oneLine]
  · obtain ⟨c, rest, hrest, hc⟩ := hletter
    exact ⟨c, rest ++ ' ' :: body.toList, by rw [hrest]; rfl, hc⟩

end Header

/-! ## Headers around a statement -/

/-- The text of headers, the outermost first, in front of a body. -/
def aroundAll (headers : List Header) (body : String) : String := headers.foldr Header.around body

theorem aroundAll_cons (header : Header) (headers : List Header) (body : String) :
    aroundAll (header :: headers) body = header.around (aroundAll headers body) := rfl

theorem aroundAll_append (outer inner : List Header) (body : String) :
    aroundAll (outer ++ inner) body = aroundAll outer (aroundAll inner body) := List.foldr_append

theorem isBodyText_aroundAll {headers : List Header} (h : ∀ w ∈ headers, w.isReadable = true)
    {body : String} (hbody : IsBodyText body.toList) :
    IsBodyText (aroundAll headers body).toList := by
  induction headers with
  | nil => exact hbody
  | cons header headers ih =>
    obtain ⟨hheader, hheaders⟩ := List.forall_mem_cons.1 h
    exact Header.isBodyText_around (Header.isGrammatical_of_isReadable hheader) (ih hheaders)

/-- The statement inside headers, the outermost first. -/
def Statement.inside : List Header → Statement → Statement
  | [], s => s
  | header :: headers, s => .block (header.around (inside headers s).text) header (inside headers s)

theorem Statement.text_inside (headers : List Header) (s : Statement) :
    (s.inside headers).text = aroundAll headers s.text := by
  cases headers with
  | nil => rfl
  | cons header headers => exact congrArg header.around (text_inside headers s)

/-- **Levels add up.** Headers around a text are read with as many levels more. -/
theorem decode_inside {headers : List Header} (hheaders : ∀ w ∈ headers, w.isReadable = true)
    {body : String} (hbody : IsBodyText body.toList) {room : Nat} {s : Statement}
    (h : (Shape.of body.toList).decode (decodeNested room) body = some s) :
    (Shape.of (aroundAll headers body).toList).decode (decodeNested (headers.length + room))
      (aroundAll headers body) = some (s.inside headers) := by
  induction headers with
  | nil => simpa [aroundAll, Statement.inside] using h
  | cons header headers ih =>
    obtain ⟨hheader, hrest⟩ := List.forall_mem_cons.1 hheaders
    have hinner := isBodyText_aroundAll hrest hbody
    have hnested : decodeNested (headers.length + room + 1) header.form
        (aroundAll headers body).toList = .ok (s.inside headers) := by
      rw [decodeNested_succ, String.ofList_toList]
      exact ih hrest
    have hlength : (header :: headers).length + room = headers.length + room + 1 := by
      rw [List.length_cons]
      omega
    have hread := Header.read_around hheader hinner (decodeNested (headers.length + room + 1))
    rw [hnested] at hread
    rw [hlength, aroundAll_cons, hread, Statement.inside, Statement.text_inside,
      Shape.text_of_decode h]
    rfl

/-- Behind the last level a header is a fault. -/
theorem Header.read_around_zero {header : Header} (h : header.isReadable = true) {body : String}
    (hbody : IsBodyText body.toList) :
    (Shape.of (header.around body).toList).decode (decodeNested 0) (header.around body) =
      some (.simple (header.around body) (.fault (.malformed header.form .nesting))) := by
  rw [read_around h hbody]
  rfl

/-- **The limit is exact.** No text is read as a chain of more than 65 statements. Up to 64 readable
headers around a statement without a body, itself no fault, are read as these headers around it.
With more of them the first 64 are read as before, around a fault that names the form of the next
one and keeps the text from there on. -/
theorem nesting_limit_is_exact :
    (∀ (text : String) (s : Statement), Statement.decode text = some s →
      s.chain.length ≤ 65) ∧
    ∀ (headers : List Header) (text : String) (action : Action),
      (∀ w ∈ headers, w.isReadable = true) → trim text.toList = text.toList →
      isOneLine text.toList = true → Statement.decode text = some (.simple text action) →
      (Statement.simple text action).isFault = false →
      (headers.length ≤ 64 →
        Statement.decode (aroundAll headers text) =
          some ((Statement.simple text action).inside headers)) ∧
      ∀ outer owner inner, headers = outer ++ owner :: inner → outer.length = 64 →
        Statement.decode (aroundAll headers text) =
          some ((Statement.simple (aroundAll (owner :: inner) text)
            (.fault (.malformed owner.form .nesting))).inside outer) := by
  refine ⟨fun text s h => Shape.length_chain_le h, ?_⟩
  intro headers text action hheaders htrim hline hdecode hfault
  have htext : IsBodyText text.toList := ⟨htrim, hline, startsWithLetter_of_decode hdecode⟩
  constructor
  · intro hlength
    have hread := decode_inside hheaders htext
      (Shape.decode_simple hfault hdecode (decodeNested (maxNesting - headers.length)))
    have hrooms : headers.length + (maxNesting - headers.length) = maxNesting :=
      Nat.add_sub_cancel' hlength
    rwa [hrooms] at hread
  · rintro outer owner inner rfl hlength
    obtain ⟨houter, hrest⟩ := List.forall_mem_append.1 hheaders
    obtain ⟨howner, hinner⟩ := List.forall_mem_cons.1 hrest
    have hlast := Header.read_around_zero howner (isBodyText_aroundAll hinner htext)
    have hread := decode_inside houter (isBodyText_aroundAll hrest htext) hlast
    rw [hlength, ← aroundAll_append] at hread
    exact hread

/-- Sixty-four headers of all forms, with a register `then` in one of them. -/
def sixtyFourHeaders : List Header :=
  (List.replicate 16 [.times (.place (.cell ⟨"a", .key "1.b"⟩)),
    .whileTrue (.compare (.literal (-1)) .lt (.place (.register "x"))),
    .doWhile (.nonzero (.place (.cell ⟨"a", .index (.register "i")⟩))),
    .ifTrue (.nonzero thenOperand)]).flatten

/-- All of them are read around a conditional without a body, but one more is too many. -/
theorem nesting_limit_is_exact_sixty_four :
    Statement.decode (aroundAll sixtyFourHeaders "if x then") =
      some ((Statement.simple "if x then" (.idle (.nonzero (.place (.register "x"))))).inside
        sixtyFourHeaders) ∧
    Statement.decode (aroundAll (sixtyFourHeaders ++ [.doWhile (.nonzero (.literal 1))])
        "if x then") =
      some ((Statement.simple "loop do-while 1 if x then"
        (.fault (.malformed (.loop .doWhile) .nesting))).inside sixtyFourHeaders) := by
  have hheaders : ∀ w ∈ sixtyFourHeaders, w.isReadable = true := by decide
  have hheaders' : ∀ w ∈ sixtyFourHeaders ++ [.doWhile (.nonzero (.literal 1))],
      w.isReadable = true := List.forall_mem_append.2 ⟨hheaders, by decide⟩
  have hcore : Statement.decode "if x then" =
      some (.simple "if x then" (.idle (.nonzero (.place (.register "x"))))) := by decide +kernel
  have htext : aroundAll [.doWhile (.nonzero (.literal 1))] "if x then" =
      "loop do-while 1 if x then" := by decide
  have hlimit := nesting_limit_is_exact.2
  have hfits := (hlimit _ _ _ hheaders (by decide) (by decide) hcore rfl).1 (by decide)
  have hexceeds := (hlimit _ _ _ hheaders' (by decide) (by decide) hcore rfl).2
    sixtyFourHeaders _ [] rfl (by decide)
  rw [htext] at hexceeds
  exact ⟨hfits, hexceeds⟩

end LineAsm
