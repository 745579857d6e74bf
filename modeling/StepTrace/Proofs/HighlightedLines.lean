import StepTrace.Viewer.Highlight

/-!
# Highlighted lines

A line can be highlighted by positions. A scanner looks at the character at its position and keeps
the letters of a word back until the word is over; at a backslash in a quoted text it goes two
positions ahead; comments and quoted texts it cuts out of the line. Taken apart into its rounds, it
never cuts outside the line and comes to its end, and every round leaves the spans that there are
at last as they were (`Scanner.Advances`). So it has the spans of the line, and their texts are the
line (`highlight_lossless`).

* `Scanner.step?`: one round; nothing if it cuts outside the line.
* `Scanner.outcome`: the spans that there are at last, by the pieces ahead of the scanner.
* `Scanner.weight`: the rounds that are left at most.
-/

namespace StepTrace.Viewer

variable {text : List Char} {c quote : Char} {k start stop : Nat}

/-! ## Spans -/

/-- The span of a piece. -/
def Piece.span (piece : Piece) : Span :=
  ⟨String.ofList piece.text, piece.style⟩

/-- The span of a text in a colour. -/
def colored (text : List Char) (color : Color) : Span :=
  ⟨String.ofList text, .ofColor color⟩

theorem highlight_eq (text : List Char) : highlight text = (pieces text).map Piece.span :=
  rfl

/-- The spans of pieces have the text of the pieces. -/
theorem join_map_span (pieces : List Piece) :
    String.join ((pieces.map Piece.span).map Span.text) =
      String.ofList (pieces.map Piece.text).flatten := by
  induction pieces with
  | nil => rfl
  | cons piece pieces ih =>
      rw [List.map_cons, List.map_cons, String.join_cons, ih, List.map_cons, List.flatten_cons,
        String.ofList_append]
      rfl

/-! ## Parts of a line -/

/-- The part of a line between two positions; nothing if one of them is outside the line or they
stand the other way round. -/
def part? (text : List Char) (start stop : Nat) : Option (List Char) :=
  if start ≤ stop ∧ stop ≤ text.length then some ((text.drop start).take (stop - start)) else none

theorem drop_eq_cons (h : text[k]? = some c) : text.drop k = c :: text.drop (k + 1) := by
  obtain ⟨hlt, rfl⟩ := List.getElem?_eq_some_iff.mp h
  exact List.drop_eq_getElem_cons hlt

theorem part?_eq (hstart : start ≤ stop) (hstop : stop ≤ text.length) :
    part? text start stop = some ((text.drop start).take (stop - start)) :=
  if_pos ⟨hstart, hstop⟩

/-- The part that goes on from where another one ends. -/
theorem take_add_drop (hstart : start ≤ k) (n : Nat) :
    (text.drop start).take (k + n - start) =
      (text.drop start).take (k - start) ++ (text.drop k).take n := by
  have hlength : k + n - start = (k - start) + n := by omega
  have hbehind : start + (k - start) = k := by omega
  rw [hlength, List.take_add, List.drop_drop, hbehind]

theorem splitQuoted_quote (quote : Char) (rest : List Char) :
    splitQuoted quote (quote :: rest) = ([quote], rest) := by
  rw [splitQuoted.eq_def]
  exact if_pos rfl

/-- In a quoted text that goes on, one character is passed over, or two at a backslash. -/
theorem splitQuoted_pass (hc : c ≠ quote) (rest : List Char) :
    let passed := if c = '\\' then 2 else 1
    splitQuoted quote (c :: rest) =
      ((c :: rest).take passed ++ (splitQuoted quote ((c :: rest).drop passed)).1,
        (splitQuoted quote ((c :: rest).drop passed)).2) := by
  rw [splitQuoted.eq_def]
  dsimp only
  rw [if_neg hc]
  by_cases hescape : c = '\\'
  · rw [if_pos hescape, if_pos hescape]
    cases rest with
    | nil => rfl
    | cons d rest => rfl
  · rw [if_neg hescape, if_neg hescape]
    rfl

/-! ## The scanner -/

/-- Where the scanner of a line stands. -/
inductive Scanner where
  /-- At a position, behind the letters of a word that is no span yet. -/
  | between (position : Nat) (word : List Char) (spans : List Span)
  /-- At a position in the quoted text that begins at `start`. A backslash at the end of the line
  brings the position one behind the end. -/
  | inside (quote : Char) (start position : Nat) (spans : List Span)
  | finished (spans : List Span)

namespace Scanner

/-- The scanner in front of a line. -/
def initial : Scanner :=
  .between 0 [] []

/-- The spans with the word that has been read as the last one, if there is one. -/
def flush (spans : List Span) (word : List Char) (called : Bool) : List Span :=
  if word.isEmpty then spans else spans ++ [⟨String.ofList word, wordStyle word called⟩]

theorem flush_eq (spans : List Span) (word : List Char) (called : Bool) :
    flush spans word called = spans ++ (wordPiece word called).map Piece.span := by
  unfold flush wordPiece
  split
  · rw [List.map_nil, List.append_nil]
  · cases called <;> rfl

/-- One round of the scanner; nothing if it cuts outside the line. -/
def step? (text : List Char) : Scanner → Option Scanner
  | .between k word spans =>
    match text[k]? with
    | none => some (.finished (flush spans word false))
    | some c =>
      if c = '/' ∧ text[k + 1]? = some '/' then
        (part? text k text.length).map fun rest =>
          .finished (flush spans word false ++ [colored rest Palette.comment])
      else if isQuote c then some (.inside c k (k + 1) (flush spans word false))
      else if isWordPart c then some (.between (k + 1) (word ++ [c]) spans)
      else
        let color := if isBracket c then Palette.primary else Palette.text
        some (.between (k + 1) [] (flush spans word (c = '(') ++ [colored [c] color]))
  | .inside quote start k spans =>
    if text[k]? = none ∨ text[k]? = some quote then
      let stop := min (k + 1) text.length
      (part? text start stop).map fun literal =>
        .between stop [] (spans ++ [colored literal Palette.string])
    else some (.inside quote start (k + if text[k]? = some '\\' then 2 else 1) spans)
  | .finished spans => some (.finished spans)

/-- The scanner after a number of rounds. -/
def after? (text : List Char) : Nat → Scanner → Option Scanner
  | 0, scanner => some scanner
  | rounds + 1, scanner => (scanner.step? text).bind (after? text rounds)

/-- The scanner has not gone past the line; in a quoted text, only its beginning has to be there. -/
def Fits (text : List Char) : Scanner → Prop
  | .between k _ _ => k ≤ text.length
  | .inside _ start k _ => start < text.length ∧ start < k
  | .finished _ => True

/-- The spans that there are at last. -/
def outcome (text : List Char) : Scanner → List Span
  | .between k word spans => spans ++ (piecesAfter word (text.drop k)).map Piece.span
  | .inside quote start k spans =>
    let ahead := splitQuoted quote (text.drop k)
    spans ++
      (⟨.quoted, (text.drop start).take (k - start) ++ ahead.1⟩ :: pieces ahead.2).map Piece.span
  | .finished spans => spans

/-- The rounds that are left at most. -/
def weight (text : List Char) : Scanner → Nat
  | .between k _ _ => 2 * (text.length - k) + 1
  | .inside _ _ k _ => 2 * (text.length - k) + 2
  | .finished _ => 0

/-- A round leads from a scanner to the next: it cuts inside the line, the spans that there are at
last are the same, and fewer rounds are left. -/
structure Advances (text : List Char) (scanner next : Scanner) : Prop where
  step?_eq : scanner.step? text = some next
  fits : next.Fits text
  outcome_eq : next.outcome text = scanner.outcome text
  weight_lt : next.weight text < scanner.weight text

/-! ## Rounds -/

variable (word : List Char) (spans : List Span)

/-- Behind the line the last word becomes a span. -/
theorem advances_end (h : text[k]? = none) :
    Advances text (.between k word spans) (.finished (flush spans word false)) := by
  have hdrop : text.drop k = [] := List.drop_eq_nil_of_le (List.getElem?_eq_none_iff.mp h)
  refine ⟨?_, trivial, ?_, Nat.succ_pos _⟩
  · rw [step?, h]
  · rw [outcome, outcome, hdrop, piecesAfter, flush_eq]

/-- A comment is the rest of the line. -/
theorem advances_comment (h : text[k]? = some c)
    (hcomment : c = '/' ∧ text[k + 1]? = some '/') :
    Advances text (.between k word spans)
      (.finished (flush spans word false ++ [colored (text.drop k) Palette.comment])) := by
  have hlt : k < text.length := (List.getElem?_eq_some_iff.mp h).1
  refine ⟨?_, trivial, ?_, Nat.succ_pos _⟩
  · rw [step?, h]
    dsimp only
    rw [if_pos hcomment, part?_eq (Nat.le_of_lt hlt) (Nat.le_refl _), Option.map_some,
      List.take_of_length_le (Nat.le_of_eq List.length_drop)]
  · rw [outcome, outcome, drop_eq_cons h, piecesAfter, List.head?_drop, if_pos hcomment, flush_eq,
      List.map_append, List.append_assoc]
    rfl

/-- At a quote a quoted text begins. -/
theorem advances_quote (h : text[k]? = some c)
    (hcomment : ¬(c = '/' ∧ text[k + 1]? = some '/')) (hquote : isQuote c = true) :
    Advances text (.between k word spans) (.inside c k (k + 1) (flush spans word false)) := by
  have hlt : k < text.length := (List.getElem?_eq_some_iff.mp h).1
  refine ⟨?_, ⟨hlt, Nat.lt_succ_self k⟩, ?_, ?_⟩
  · rw [step?, h]
    dsimp only
    rw [if_neg hcomment, if_pos hquote]
  · rw [outcome, outcome, drop_eq_cons h, piecesAfter, List.head?_drop, if_neg hcomment,
      if_pos hquote, flush_eq, List.map_append, List.append_assoc, Nat.add_sub_cancel_left]
    rfl
  · simp only [weight]
    omega

/-- A letter of a word is kept back. -/
theorem advances_letter (h : text[k]? = some c)
    (hcomment : ¬(c = '/' ∧ text[k + 1]? = some '/')) (hquote : ¬isQuote c = true)
    (hword : isWordPart c = true) :
    Advances text (.between k word spans) (.between (k + 1) (word ++ [c]) spans) := by
  have hlt : k < text.length := (List.getElem?_eq_some_iff.mp h).1
  refine ⟨?_, hlt, ?_, ?_⟩
  · rw [step?, h]
    dsimp only
    rw [if_neg hcomment, if_neg hquote, if_pos hword]
  · rw [outcome, outcome, drop_eq_cons h, piecesAfter, List.head?_drop, if_neg hcomment,
      if_neg hquote, if_pos hword]
  · simp only [weight]
    omega

/-- Any other character is a span of its own. -/
theorem advances_mark (h : text[k]? = some c)
    (hcomment : ¬(c = '/' ∧ text[k + 1]? = some '/')) (hquote : ¬isQuote c = true)
    (hword : ¬isWordPart c = true) :
    Advances text (.between k word spans) (.between (k + 1) [] (flush spans word (c = '(') ++
      [colored [c] (if isBracket c then Palette.primary else Palette.text)])) := by
  have hlt : k < text.length := (List.getElem?_eq_some_iff.mp h).1
  refine ⟨?_, hlt, ?_, ?_⟩
  · rw [step?, h]
    dsimp only
    rw [if_neg hcomment, if_neg hquote, if_neg hword]
  · rw [outcome, outcome, drop_eq_cons h, piecesAfter, List.head?_drop, if_neg hcomment,
      if_neg hquote, if_neg hword, flush_eq, List.map_append, List.append_assoc, List.append_assoc]
    cases isBracket c <;> rfl
  · simp only [weight]
    omega

/-- A quoted text goes on to its quote, or to a position behind the line. -/
theorem advances_inside (hbegins : start < text.length) (hstart : start < k)
    (h : text[k]? = some c) (hquote : c ≠ quote) :
    Advances text (.inside quote start k spans)
      (.inside quote start (k + if c = '\\' then 2 else 1) spans) := by
  have hlt : k < text.length := (List.getElem?_eq_some_iff.mp h).1
  have hopen : ¬(text[k]? = none ∨ text[k]? = some quote) := by
    rw [h]
    simpa using hquote
  have hpassed : 1 ≤ if c = '\\' then 2 else 1 := by split <;> omega
  refine ⟨?_, ⟨hbegins, by omega⟩, ?_, ?_⟩
  · rw [step?, if_neg hopen, h]
    simp only [Option.some.injEq]
  · rw [outcome, outcome, take_add_drop (Nat.le_of_lt hstart), ← List.drop_drop,
      drop_eq_cons h, splitQuoted_pass hquote]
    dsimp only
    rw [List.append_assoc]
  · simp only [weight]
    omega

/-- A quoted text is closed behind its quote. -/
theorem advances_close (hstart : start < k) (h : text[k]? = some quote) :
    Advances text (.inside quote start k spans) (.between (k + 1) []
      (spans ++ [colored ((text.drop start).take (k + 1 - start)) Palette.string])) := by
  have hlt : k < text.length := (List.getElem?_eq_some_iff.mp h).1
  have hmin : min (k + 1) text.length = k + 1 := Nat.min_eq_left hlt
  refine ⟨?_, hlt, ?_, ?_⟩
  · rw [step?, if_pos (Or.inr h)]
    dsimp only
    rw [hmin, part?_eq (by omega) hlt, Option.map_some]
  · rw [outcome, outcome, take_add_drop (Nat.le_of_lt hstart), drop_eq_cons h, splitQuoted_quote,
      List.append_assoc]
    rfl
  · simp only [weight]
    omega

/-- A quoted text that is not closed ends with the line. -/
theorem advances_open (hbegins : start < text.length) (h : text[k]? = none) :
    Advances text (.inside quote start k spans)
      (.between text.length [] (spans ++ [colored (text.drop start) Palette.string])) := by
  have hle : text.length ≤ k := List.getElem?_eq_none_iff.mp h
  have hmin : min (k + 1) text.length = text.length := Nat.min_eq_right (by omega)
  -- at the end or one behind it, the part from the quote on is the rest of the line
  have hall : ∀ stop, text.length ≤ stop →
      (text.drop start).take (stop - start) = text.drop start := fun stop hstop =>
    List.take_of_length_le (by rw [List.length_drop]; omega)
  refine ⟨?_, Nat.le_refl _, ?_, ?_⟩
  · rw [step?, if_pos (Or.inl h)]
    dsimp only
    rw [hmin, part?_eq (Nat.le_of_lt hbegins) (Nat.le_refl _), hall _ (Nat.le_refl _),
      Option.map_some]
  · rw [outcome, outcome, hall k hle, List.drop_eq_nil_of_le hle, List.drop_length, splitQuoted,
      List.append_assoc]
    dsimp only
    rw [List.append_nil]
    rfl
  · simp only [weight]
    omega

/-- Unless it is finished, a scanner whose positions fit always goes on. -/
theorem exists_advances {scanner : Scanner} (h : scanner.Fits text) :
    (∃ spans, scanner = .finished spans) ∨ ∃ next, Advances text scanner next := by
  cases scanner with
  | between k word spans =>
      refine Or.inr ?_
      cases hat : text[k]? with
      | none => exact ⟨_, advances_end word spans hat⟩
      | some c =>
          by_cases hcomment : c = '/' ∧ text[k + 1]? = some '/'
          · exact ⟨_, advances_comment word spans hat hcomment⟩
          by_cases hquote : isQuote c = true
          · exact ⟨_, advances_quote word spans hat hcomment hquote⟩
          by_cases hword : isWordPart c = true
          · exact ⟨_, advances_letter word spans hat hcomment hquote hword⟩
          · exact ⟨_, advances_mark word spans hat hcomment hquote hword⟩
  | inside quote start k spans =>
      obtain ⟨hbegins, hstart⟩ := h
      refine Or.inr ?_
      cases hat : text[k]? with
      | none => exact ⟨_, advances_open spans hbegins hat⟩
      | some c =>
          by_cases hquote : c = quote
          · exact ⟨_, advances_close spans hstart (hquote ▸ hat)⟩
          · exact ⟨_, advances_inside spans hbegins hstart hat hquote⟩
  | finished spans => exact Or.inl ⟨spans, rfl⟩

/-- A scanner whose positions fit comes to its end and has the spans then. -/
theorem exists_finished {scanner : Scanner} (h : scanner.Fits text) :
    ∃ rounds ≤ scanner.weight text,
      after? text rounds scanner = some (.finished (scanner.outcome text)) := by
  -- by what is left to do: the weight falls from round to round
  induction hweight : scanner.weight text using Nat.strongRecOn generalizing scanner with
  | ind weight ih =>
      rcases exists_advances h with ⟨spans, rfl⟩ | ⟨next, hnext⟩
      · exact ⟨0, Nat.zero_le _, rfl⟩
      · have hlt : next.weight text < weight := hweight ▸ hnext.weight_lt
        obtain ⟨rounds, hrounds, hafter⟩ := ih _ hlt hnext.fits rfl
        refine ⟨rounds + 1, by omega, ?_⟩
        rw [after?, hnext.step?_eq, Option.bind_some, hafter, hnext.outcome_eq]

end Scanner

/-! ## The line -/

/-- **Highlighting is lossless.** The scanner of a line comes to its end after a number of rounds
that is linear in the length of the line, without a cut outside the line on its way, and has the
spans of the line then. Their texts one after the other are the line. -/
theorem highlight_lossless (line : String) :
    (∃ rounds ≤ 2 * line.length + 1, Scanner.initial.after? line.toList rounds =
      some (.finished (highlight line.toList))) ∧
    String.join ((highlight line.toList).map Span.text) = line := by
  constructor
  · have hfits : Scanner.initial.Fits line.toList := Nat.zero_le _
    exact Scanner.exists_finished hfits
  · rw [highlight_eq, join_map_span, flatten_pieces, String.ofList_toList]

example : (highlight "f(\"//\", 'a\\".toList).map Span.text =
    ["f", "(", "\"//\"", ",", " ", "'a\\"] := by cbv

end StepTrace.Viewer
