import StepTrace.Proofs.LoopLevels

/-!
# Forests of loops

Loops written with one item on a line, the header of a loop, what is in it, and a line that closes
it, are a forest (`Forest`), and other lines may stand anywhere between them. Whatever level is
open in front of such a text, it is open again behind it, and the deepest level opened on the way
is higher than that by the height of the forest (`levels_lines`); so the report on the text is
exact (`analyze_forest`).
-/

namespace StepTrace.Structure

open Text

/-! ## Lines -/

/-- A line that opens a loop, with any text behind its loop word. -/
structure HeaderLine where
  text : List Char
  startsLoop : StartsLoop text
  isOneLine : '\n' ∉ text

/-- A line that closes a loop: of braces it has one closing brace only. -/
structure ClosingLine where
  text : List Char
  startsNoLoop : ¬ StartsLoop text
  closesOnce : text.count '}' = 1
  opensNothing : '{' ∉ text
  isOneLine : '\n' ∉ text

/-- A line that neither opens nor closes a loop: it has no brace. -/
structure OtherLine where
  text : List Char
  startsNoLoop : ¬ StartsLoop text
  closesNothing : '}' ∉ text
  opensNothing : '{' ∉ text
  isOneLine : '\n' ∉ text

theorem HeaderLine.opensLevel (line : HeaderLine) : opensLevel line.text = true :=
  opensLevel_iff.mpr line.startsLoop

theorem ClosingLine.opensLevel (line : ClosingLine) : opensLevel line.text = false :=
  Bool.eq_false_iff.mpr fun h => line.startsNoLoop (opensLevel_iff.mp h)

theorem ClosingLine.endsLevel (line : ClosingLine) : endsLevel line.text = true := by
  have hbrace : '}' ∈ line.text := List.count_pos_iff.mp (by rw [line.closesOnce]; exact Nat.one_pos)
  exact endsLevel_iff.mpr ⟨line.startsNoLoop, hbrace, line.opensNothing⟩

theorem OtherLine.opensLevel (line : OtherLine) : opensLevel line.text = false :=
  Bool.eq_false_iff.mpr fun h => line.startsNoLoop (opensLevel_iff.mp h)

theorem OtherLine.endsLevel (line : OtherLine) : endsLevel line.text = false :=
  Bool.eq_false_iff.mpr fun h => line.closesNothing (endsLevel_iff.mp h).2.1

/-! ## Forests -/

/-- Loops one behind the other, with loops inside them and other lines between them. -/
inductive Forest where
  | nil
  | line (other : OtherLine) (rest : Forest)
  | loop (header : HeaderLine) (body : Forest) (closing : ClosingLine) (rest : Forest)

namespace Forest

/-- The lines of a forest. -/
def lines : Forest → List (List Char)
  | nil => []
  | line other rest => other.text :: rest.lines
  | loop header body closing rest =>
    header.text :: body.lines ++ closing.text :: rest.lines

/-- The text of a forest, with newlines between the lines. -/
def text (forest : Forest) : String :=
  String.ofList (joinLines forest.lines)

/-- The number of loops that stand inside each other. -/
def height : Forest → Nat
  | nil => 0
  | line _ rest => rest.height
  | loop _ body _ rest => max (body.height + 1) rest.height

/-- The headers of all loops. -/
def headers : Forest → List HeaderLine
  | nil => []
  | line _ rest => rest.headers
  | loop header body _ rest => header :: body.headers ++ rest.headers

theorem isOneLine (forest : Forest) : ∀ line ∈ forest.lines, '\n' ∉ line := by
  induction forest with
  | nil => exact List.forall_mem_nil _
  | line other rest ih => exact List.forall_mem_cons.mpr ⟨other.isOneLine, ih⟩
  | loop header body closing rest ih ih' =>
      refine List.forall_mem_append.mpr ⟨List.forall_mem_cons.mpr ⟨header.isOneLine, ih⟩, ?_⟩
      exact List.forall_mem_cons.mpr ⟨closing.isOneLine, ih'⟩

/-- The level in front of a forest is open again behind it, and the loops open as many levels above
it as the forest is high. -/
theorem levels_lines (forest : Forest) (n : Nat) : levelAfter n forest.lines = n ∧
    peak n forest.lines = if forest.height = 0 then 0 else n + forest.height := by
  induction forest generalizing n with
  | nil => exact ⟨rfl, rfl⟩
  | line other rest ih =>
      have hlevel : levelBehind n other.text = n := by
        simp [levelBehind, other.opensLevel, other.endsLevel]
      rw [lines, levelAfter_cons, peak, other.opensLevel, hlevel, height]
      simpa using ih n
  | loop header body closing rest ih ih' =>
      obtain ⟨hbody, hdeep⟩ := ih (n + 1)
      obtain ⟨hrest, hdeep'⟩ := ih' n
      have hopened : levelBehind n header.text = n + 1 := by
        simp [levelBehind, header.opensLevel]
      have hclosed : levelBehind (n + 1) closing.text = n := by
        simp [levelBehind, closing.opensLevel, closing.endsLevel]
      have hinside : levelAfter n (header.text :: body.lines) = n + 1 := by
        rw [levelAfter_cons, hopened, hbody]
      refine ⟨?_, ?_⟩
      · rw [lines, levelAfter_append, hinside, levelAfter_cons, hclosed, hrest]
      · rw [lines, peak_append, hinside, peak, peak, header.opensLevel, closing.opensLevel, hopened,
          hclosed, hdeep, hdeep', height]
        simp only [if_true, Bool.false_eq_true, if_false]
        split <;> split <;> split <;> omega

theorem scales_lines (forest : Forest) : forest.lines.any scalesLevel = true ↔
    ∃ header ∈ forest.headers, hasScalingUpdate (trim header.text) = true := by
  induction forest with
  | nil => simp [lines, headers]
  | line other rest ih =>
      have hother : scalesLevel other.text = false := by
        simp [scalesLevel, other.opensLevel]
      rw [lines, List.any_cons, hother, Bool.false_or, ih, headers]
  | loop header body closing rest ih ih' =>
      have hheader : scalesLevel header.text = hasScalingUpdate (trim header.text) := by
        simp [scalesLevel, header.opensLevel]
      have hclosing : scalesLevel closing.text = false := by
        simp [scalesLevel, closing.opensLevel]
      simp only [lines, headers, List.any_append, List.any_cons, hheader, hclosing, Bool.or_eq_true,
        Bool.false_eq_true, false_or, ih, ih', List.mem_cons, List.mem_append, or_and_right,
        exists_or, exists_eq_left, List.cons_append]

/-- The report on the text of a forest, in terms of the forest. -/
theorem analyze_text (forest : Forest) : (analyze forest.text).maxNesting = forest.height ∧
    (analyze forest.text).growth =
      if forest.lines.any scalesLevel then .logarithmic else .ofNesting forest.height := by
  have hheight : peak 0 forest.lines = forest.height := by
    rw [(levels_lines forest 0).2]
    split <;> omega
  obtain ⟨hnesting, hgrowth⟩ := analyze_eq forest.text
  by_cases hempty : forest.lines = []
  · -- the text without a line is split into one empty piece, which is no line of the forest
    have hpieces : splitLines forest.text.toList = [[]] := by
      rw [text, String.toList_ofList, hempty]
      rfl
    rw [hpieces] at hnesting hgrowth
    rw [← hheight, hnesting, hgrowth, hempty]
    exact ⟨rfl, rfl⟩
  · have hpieces : splitLines forest.text.toList = forest.lines := by
      rw [text, String.toList_ofList]
      exact splitLines_joinLines hempty forest.isOneLine
    rw [hnesting, hgrowth, hpieces, hheight]
    exact ⟨rfl, rfl⟩

end Forest

/-- The growth in words tells whether it is logarithmic. -/
theorem Growth.display_ofNesting_ne (n : Nat) : (Growth.ofNesting n).display ≠ "O(log n)" := by
  unfold Growth.ofNesting
  split <;> decide

/-- The report on loops with one item on a line: the nesting is the height of the forest, and the
growth is that of the height unless a header, the blanks around it aside, scales a variable. -/
theorem analyze_forest (forest : Forest) :
    (analyze forest.text).maxNesting = forest.height ∧
    ((analyze forest.text).growth.display = "O(log n)" ↔
      ∃ header ∈ forest.headers, hasScalingUpdate (trim header.text) = true) ∧
    ((¬ ∃ header ∈ forest.headers, hasScalingUpdate (trim header.text) = true) →
      (forest.height = 0 → (analyze forest.text).growth.display = "O(1)") ∧
      (forest.height = 1 → (analyze forest.text).growth.display = "O(n)") ∧
      (forest.height = 2 → (analyze forest.text).growth.display = "O(n²)") ∧
      (3 ≤ forest.height → (analyze forest.text).growth.display = "O(n³)")) := by
  obtain ⟨hnesting, hgrowth⟩ := forest.analyze_text
  rw [← forest.scales_lines, hgrowth]
  refine ⟨hnesting, ?_, ?_⟩
  · constructor
    · intro h
      by_contra hscales
      rw [if_neg hscales] at h
      exact Growth.display_ofNesting_ne _ h
    · intro hscales
      rw [if_pos hscales]
      rfl
  · intro hscales
    rw [if_neg hscales]
    refine ⟨fun h => by rw [h]; rfl, fun h => by rw [h]; rfl, fun h => by rw [h]; rfl, fun h => ?_⟩
    obtain ⟨n, hn⟩ := Nat.exists_eq_add_of_le' h
    rw [hn]
    rfl

/-- Two loops inside each other, with a line inside of both. -/
def nestedLoops : Forest :=
  .loop ⟨['f', 'o', 'r', ' ', '(', ';', ';', ')', ' ', '{'], opensLevel_iff.mp (by decide +kernel),
      by decide⟩
    (.loop ⟨[' ', 'w', 'h', 'i', 'l', 'e', '(', 'x', ')', '{'], opensLevel_iff.mp (by decide +kernel),
        by decide⟩
      (.line ⟨[' ', ' ', 'f', 'o', 'r', 'm', ';'],
          fun h => absurd (opensLevel_iff.mpr h) (by decide +kernel), by decide, by decide, by decide⟩
        .nil)
      ⟨[' ', '}'], fun h => absurd (opensLevel_iff.mpr h) (by decide +kernel), by decide, by decide,
        by decide⟩
      .nil)
    ⟨['}', ';'], fun h => absurd (opensLevel_iff.mpr h) (by decide +kernel), by decide, by decide,
      by decide⟩
    .nil

theorem analyze_nestedLoops : (analyze nestedLoops.text).maxNesting = 2 ∧
    (analyze nestedLoops.text).growth.display = "O(n²)" := by
  obtain ⟨hnesting, -, hplain⟩ := analyze_forest nestedLoops
  have hnone : ¬ ∃ header ∈ nestedLoops.headers, hasScalingUpdate (trim header.text) = true := by
    decide +kernel
  exact ⟨hnesting, (hplain hnone).2.2.1 rfl⟩

end StepTrace.Structure
