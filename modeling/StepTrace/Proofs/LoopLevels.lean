import StepTrace.Proofs.AbsentPatterns
import StepTrace.Proofs.Edits
import StepTrace.Proofs.ParameterNames
import StepTrace.Structure

/-!
# Levels of nesting

Of every line the scan for nested loops asks whether it opens a level or ends one. What a run of
lines does to the scan is then told by two numbers, the level behind them (`levelAfter`) and the
deepest level that one of them opens (`peak`), and neither depends on the lines in front of them
but for the level these have left (`Scan.over_eq`).

* `occursIn_loopHeader`: the texts that open a level are those that start with a loop word.
* `analyze_eq`: a report in terms of the lines.
* `levelAfter_le_iff`: the level behind the lines, by counting.
-/

namespace StepTrace

/-! ## Trimmed lines -/

namespace Text

variable {c : Char} {text : List Char}

/-- Trimming takes no character away that is not blank. -/
theorem mem_trim (hc : isBlank c = false) : c ∈ trim text ↔ c ∈ text := by
  have hstop (text : List Char) : c ∈ text.dropWhile isBlank ↔ c ∈ text := by
    refine ⟨fun h => (List.dropWhile_suffix _).subset h, fun h => ?_⟩
    rw [← List.takeWhile_append_dropWhile (p := isBlank) (l := text), List.mem_append] at h
    refine h.resolve_left fun hfront => ?_
    rw [List.mem_takeWhile_imp hfront] at hc
    cases hc
  rw [trim, trimEnd, List.mem_reverse, hstop, List.mem_reverse, trimStart, hstop]

/-- A blank at the end does not count. -/
theorem trim_concat (hc : isBlank c = true) (text : List Char) : trim (text ++ [c]) = trim text := by
  have hend (text : List Char) : trimEnd (text ++ [c]) = trimEnd text := by
    rw [trimEnd, List.reverse_append, List.reverse_singleton, List.singleton_append,
      List.dropWhile_cons_of_pos hc, trimEnd]
  rw [trim, trimStart, List.dropWhile_append]
  split
  · rename_i hblank
    rw [List.dropWhile_cons_of_pos hc, trim, trimStart, List.isEmpty_iff.mp hblank]
    rfl
  · exact hend _

/-- The blanks at the end of a text. -/
theorem exists_trimEnd (text : List Char) :
    ∃ back, text = trimEnd text ++ back ∧ ∀ c ∈ back, isBlank c = true := by
  refine ⟨(text.reverse.takeWhile isBlank).reverse, ?_, fun c hc => ?_⟩
  · rw [trimEnd, ← List.reverse_append, List.takeWhile_append_dropWhile, List.reverse_reverse]
  · exact List.mem_takeWhile_imp (List.mem_reverse.mp hc)

theorem trim_dropReturn (line : List Char) : trim (dropReturn line) = trim line := by
  unfold dropReturn
  split
  · rename_i hlast
    obtain ⟨front, hfront⟩ := List.getLast?_eq_some_iff.mp hlast
    rw [hfront, List.dropLast_concat, trim_concat (by decide)]
  · rfl

/-- A newline between two texts keeps their lines apart. -/
theorem splitLines_append (front back : List Char) :
    splitLines (front ++ '\n' :: back) = splitLines front ++ splitLines back := by
  induction front with
  | nil => simp [splitLines]
  | cons c front ih =>
      obtain ⟨line, others, hlines⟩ := List.exists_cons_of_ne_nil (splitLines_ne_nil front)
      rw [hlines] at ih
      by_cases hc : c = '\n'
      · simp [splitLines, hc, ih, hlines]
      · simp [splitLines, hc, ih, hlines]

end Text

namespace Structure

open Pattern Text

/-! ## Loop words -/

/-- The words that open a loop. -/
def loopWords : List String :=
  ["for", "while"]

/-- A loop word stands in front of the rest, and does not go on there. -/
def LoopWord (word : String) (rest : List Char) : Prop :=
  word ∈ loopWords ∧ rest.head?.any isWordChar = false

/-- Behind its indentation the line starts with a loop word. -/
def StartsLoop (line : List Char) : Prop :=
  ∃ indentation word rest, line = indentation ++ (word.toList ++ rest) ∧
    (∀ c ∈ indentation, isBlank c = true) ∧ LoopWord word rest

/-- The loop pattern occurs at the start of a text only, where a loop word stands in front of an
edge. -/
theorem occurs_loopHeader_iff {piece rest : List Char} {groups : List (Nat × List Char)}
    {previous : Option Char} : Occurs loopHeader previous piece rest groups ↔
      previous = none ∧ Occurs (words loopWords) none piece rest groups ∧
        rest.head?.any isWordChar = false := by
  have hlast {word : String} (hword : word ∈ loopWords) :
      word.toList.getLast?.any isWordChar = true := by
    revert word
    decide
  constructor
  · intro h
    cases h with
    | seq hstart h =>
    cases hstart with
    | anchor hstart =>
    obtain rfl : previous = none := Option.isNone_iff_eq_none.mp hstart
    cases h with
    | seq hword h =>
    cases h with
    | seq hedge hempty =>
    cases hempty
    cases hedge with
    | anchor hedge =>
    obtain ⟨word, hmem, rfl⟩ := exists_of_spells_words hword.spells
    have hdiffers : (word.toList.getLast?.any isWordChar != rest.head?.any isWordChar) = true := by
      simpa [holdsBetween, Place.satisfies] using hedge
    rw [hlast hmem] at hdiffers
    rw [List.nil_append, List.append_nil, List.append_nil, List.append_nil, List.nil_append]
    exact ⟨rfl, hword, by simpa using hdiffers⟩
  · rintro ⟨rfl, hword, hrest⟩
    obtain ⟨word, hmem, rfl⟩ := exists_of_spells_words hword.spells
    have hedge : Occurs edge word.toList.getLast? [] rest [] := by
      refine .anchor ?_
      change (word.toList.getLast?.any isWordChar != rest.head?.any isWordChar) = true
      rw [hlast hmem, hrest]
      rfl
    have hbehind : Occurs (.seq edge .empty) (word.toList.getLast?.or none) ([] ++ []) rest
        ([] ++ []) := by
      rw [Option.or_none]
      exact hedge.seq .empty
    have hstart : Occurs (.anchor .textStart) none [] (word.toList ++ [] ++ rest) [] := .anchor rfl
    have hwhole := hstart.seq (hword.seq hbehind)
    rwa [List.nil_append, List.append_nil, List.nil_append, List.nil_append, List.append_nil]
      at hwhole

/-- The loop pattern occurs in a text if and only if that starts with a loop word. -/
theorem occursIn_loopHeader (text : List Char) : loopHeader.occursIn text = true ↔
    ∃ word rest, text = word.toList ++ rest ∧ LoopWord word rest := by
  constructor
  · intro h
    by_contra hnot
    refine absurd h (Bool.eq_false_iff.mp (Absent.occursIn ?_))
    intro passed piece groups rest htext hoccurs
    obtain ⟨hnone, hword, hrest⟩ := occurs_loopHeader_iff.mp hoccurs
    obtain rfl : passed = [] := List.getLast?_eq_none_iff.mp hnone
    obtain ⟨word, hmem, rfl⟩ := exists_of_spells_words hword.spells
    exact hnot ⟨word, rest, htext, hmem, hrest⟩
  · rintro ⟨word, rest, rfl, hmem, hrest⟩
    have hword : Occurs (words loopWords) none word.toList rest [] :=
      (spells_words hmem).occurs rfl _ _
    have hoccurs := occurs_loopHeader_iff.mpr ⟨rfl, hword, hrest⟩
    have hstart : (Place.start (word.toList ++ rest)).rest = [] ++ (word.toList ++ rest) := rfl
    have hlimit : (Place.start (word.toList ++ rest)).rest.length <
        (word.toList ++ rest).length + 1 := Nat.lt_succ_self _
    obtain ⟨_, _, _, -, -, hfound⟩ :=
      findFrom?_occurs rfl rfl hstart hlimit (noneOccurs_nil _ _ _) hoccurs
    unfold Pattern.occursIn find?
    rw [hfound]
    rfl

/-- What stands behind a loop word goes on where the blanks at its end are cut off, and if blanks
are added. -/
theorem LoopWord.of_blanks {word : String} {rest back : List Char}
    (hback : ∀ c ∈ back, isBlank c = true) :
    LoopWord word (rest ++ back) ↔ LoopWord word rest := by
  have hhead : (rest ++ back).head?.any isWordChar = rest.head?.any isWordChar := by
    cases rest with
    | cons c rest => rfl
    | nil =>
        cases back with
        | nil => rfl
        | cons c back => exact isWordChar_of_isBlank (hback c List.mem_cons_self)
  rw [LoopWord, LoopWord, hhead]

/-- Blanks around a line do not change whether it starts a loop. -/
theorem startsLoop_iff (line : List Char) :
    StartsLoop line ↔ ∃ word rest, trim line = word.toList ++ rest ∧ LoopWord word rest := by
  constructor
  · rintro ⟨indentation, word, rest, rfl, hblank, hword⟩
    have hletters : ∀ word ∈ loopWords, word.toList ≠ [] ∧
        (word.toList.all fun c => ! isBlank c) = true := by
      decide
    obtain ⟨hne, hall⟩ := hletters word hword.1
    have hplain (c : Char) (hc : c ∈ word.toList) : isBlank c = false := by
      simpa using List.all_eq_true.mp hall c hc
    have hstart : trimStart (indentation ++ (word.toList ++ rest)) = word.toList ++ rest := by
      refine trimStart_of_blanks hblank fun c hc => hplain c ?_
      rw [List.head?_append_of_ne_nil _ hne] at hc
      exact List.mem_of_mem_head? hc
    obtain ⟨front, last, hfront⟩ : ∃ front last, word.toList = front ++ [last] :=
      ⟨_, _, (List.dropLast_concat_getLast hne).symm⟩
    have hlast : isBlank last = false := hplain last (by simp [hfront])
    obtain ⟨back, hback, hblanks⟩ := exists_trimEnd rest
    refine ⟨word, trimEnd rest, ?_, ?_⟩
    · rw [trim, hstart, hfront, List.append_assoc, List.append_assoc, List.singleton_append,
        trimEnd_append_cons hlast]
      rfl
    · rw [hback] at hword
      exact (LoopWord.of_blanks hblanks).mp hword
  · rintro ⟨word, rest, htrim, hword⟩
    obtain ⟨back, hback, hblank⟩ := exists_trimEnd (trimStart line)
    have hstart : trimStart line = word.toList ++ (rest ++ back) := by
      rw [← List.append_assoc, ← htrim]
      exact hback
    refine ⟨line.takeWhile isBlank, word, rest ++ back, ?_, fun c hc => List.mem_takeWhile_imp hc,
      (LoopWord.of_blanks hblank).mpr hword⟩
    rw [← hstart, trimStart_append]

/-! ## What a line does -/

/-- The line opens a level. -/
def opensLevel (line : List Char) : Bool :=
  loopHeader.occursIn (trim line)

/-- The line ends a level: it opens none, and it has a closing brace and no opening one. -/
def endsLevel (line : List Char) : Bool :=
  ! opensLevel line && (line.contains '}' && ! line.contains '{')

/-- The line opens a level with a loop that scales its variable. -/
def scalesLevel (line : List Char) : Bool :=
  opensLevel line && hasScalingUpdate (trim line)

/-- The level behind a line. -/
def levelBehind (level : Nat) (line : List Char) : Nat :=
  if opensLevel line then level + 1 else if endsLevel line then level - 1 else level

/-- The level behind lines. -/
def levelAfter (level : Nat) (lines : List (List Char)) : Nat :=
  lines.foldl levelBehind level

/-- The deepest level that one of the lines opens. -/
def peak : Nat → List (List Char) → Nat
  | _, [] => 0
  | level, line :: rest =>
    max (if opensLevel line then level + 1 else 0) (peak (levelBehind level line) rest)

theorem opensLevel_iff {line : List Char} : opensLevel line = true ↔ StartsLoop line :=
  (occursIn_loopHeader _).trans (startsLoop_iff line).symm

theorem endsLevel_iff {line : List Char} : endsLevel line = true ↔
    ¬ StartsLoop line ∧ '}' ∈ line ∧ '{' ∉ line := by
  rw [← opensLevel_iff]
  simp [endsLevel]

/-- What a line does to the scan. -/
theorem nest_trim (s : Scan) (line : List Char) : s.nest (trim line) =
    { s with
      level := levelBehind s.level line
      deepest := max s.deepest (if opensLevel line then s.level + 1 else 0)
      scaling := s.scaling || scalesLevel line } := by
  have hbraces : ((trim line).contains '}' && ! (trim line).contains '{') =
      (line.contains '}' && ! line.contains '{') := by
    have hmem {c : Char} (hc : isBlank c = false) : (trim line).contains c = line.contains c := by
      rw [Bool.eq_iff_iff, List.contains_iff_mem, List.contains_iff_mem, mem_trim hc]
    rw [hmem (by decide), hmem (by decide)]
  unfold Scan.nest
  rw [hbraces]
  by_cases hopens : opensLevel line = true
  · have hheader : loopHeader.occursIn (trim line) = true := hopens
    simp [levelBehind, scalesLevel, hopens, hheader]
  · rw [Bool.not_eq_true] at hopens
    have hheader : loopHeader.occursIn (trim line) = false := hopens
    simp only [levelBehind, endsLevel, scalesLevel, hopens, hheader, Bool.false_eq_true, if_false,
      Bool.not_false, Bool.true_and, Bool.false_and, Bool.or_false, Nat.max_zero]
    split
    · rfl
    · rfl

/-! ## What lines do -/

/-- The scan behind lines, their functions left aside. -/
def Scan.over (s : Scan) (lines : List (List Char)) : Scan :=
  lines.foldl (fun s line => s.nest (trim line)) s

theorem Scan.over_eq (s : Scan) (lines : List (List Char)) : s.over lines =
    { s with
      level := levelAfter s.level lines
      deepest := max s.deepest (peak s.level lines)
      scaling := s.scaling || lines.any scalesLevel } := by
  induction lines generalizing s with
  | nil => simp [Scan.over, levelAfter, peak]
  | cons line rest ih =>
      have hstep : s.over (line :: rest) = (s.nest (trim line)).over rest := rfl
      rw [hstep, ih, nest_trim]
      simp [levelAfter, peak, Nat.max_assoc, Bool.or_assoc]

variable {m n : Nat} {line : List Char} {front back lines : List (List Char)}

theorem levelAfter_cons (n : Nat) (line : List Char) (rest : List (List Char)) :
    levelAfter n (line :: rest) = levelAfter (levelBehind n line) rest :=
  rfl

theorem levelAfter_append (n : Nat) (front back : List (List Char)) :
    levelAfter n (front ++ back) = levelAfter (levelAfter n front) back :=
  List.foldl_append

theorem peak_append (n : Nat) (front back : List (List Char)) :
    peak n (front ++ back) = max (peak n front) (peak (levelAfter n front) back) := by
  induction front generalizing n with
  | nil => simp [peak, levelAfter]
  | cons line front ih => simp [peak, levelAfter, ih, Nat.max_assoc]

theorem levelBehind_mono (h : m ≤ n) (line : List Char) :
    levelBehind m line ≤ levelBehind n line := by
  unfold levelBehind
  split
  · omega
  · split
    · omega
    · exact h

/-- From a deeper level lines reach deeper. -/
theorem peak_mono (h : m ≤ n) (lines : List (List Char)) : peak m lines ≤ peak n lines := by
  induction lines generalizing m n with
  | nil => exact Nat.le_refl 0
  | cons line rest ih =>
      have hrest := ih (levelBehind_mono h line)
      unfold peak
      split
      · omega
      · omega

/-- A level cannot be ended where none is open, so the level behind lines is known from the lines
behind any of them. -/
theorem levelAfter_le_iff : levelAfter m lines ≤ n ↔
    (∀ tail, tail <:+ lines → tail.countP opensLevel ≤ tail.countP endsLevel + n) ∧
      m + lines.countP opensLevel ≤ lines.countP endsLevel + n := by
  induction lines generalizing m with
  | nil => simp [levelAfter]
  | cons line rest ih =>
      have hline : (opensLevel line = true ∧ endsLevel line = false) ∨
          (opensLevel line = false ∧ endsLevel line = true) ∨
            (opensLevel line = false ∧ endsLevel line = false) := by
        cases hopens : opensLevel line with
        | true => simp [endsLevel, hopens]
        | false => cases endsLevel line <;> simp
      rw [levelAfter_cons, ih]
      simp only [List.suffix_cons_iff, forall_eq_or_imp, List.countP_cons, levelBehind]
      rcases hline with hline | hline | hline
      all_goals
        simp only [hline, if_true, Bool.false_eq_true, if_false]
        constructor
        · rintro ⟨h, hwhole⟩
          have hrest := h rest List.suffix_rfl
          exact ⟨⟨by omega, h⟩, by omega⟩
        · rintro ⟨⟨-, h⟩, hwhole⟩
          have hrest := h rest List.suffix_rfl
          exact ⟨h, by omega⟩

/-! ## Reports -/

/-- The scan without what it has found out about functions. -/
def Scan.levels (s : Scan) : Scan :=
  { s with found := [] }

theorem Scan.levels_line (s : Scan) (numbered : Nat × List Char) :
    (s.line numbered).levels = s.levels.nest (trim numbered.2) := by
  have hdeclare (s : Scan) (line : List Char) : (s.declare numbered.1 line).levels = s.levels := by
    unfold Scan.declare
    split
    · rfl
    · split <;> rfl
  rw [Scan.line, hdeclare, nest_trim, nest_trim]
  rfl

theorem Scan.levels_lines (s : Scan) (numbered : List (Nat × List Char)) :
    (numbered.foldl Scan.line s).levels = s.levels.over (numbered.map Prod.snd) := by
  induction numbered generalizing s with
  | nil => rfl
  | cons first rest ih =>
      rw [List.foldl_cons, ih, levels_line]
      rfl

/-- How lines end does not count, and neither does an empty piece behind the last newline. -/
theorem Scan.over_lines (s : Scan) (text : List Char) :
    s.over (Text.lines text) = s.over (splitLines text) := by
  have happend (s : Scan) (front back : List (List Char)) :
      s.over (front ++ back) = (s.over front).over back := List.foldl_append
  have hreturns (s : Scan) (lines : List (List Char)) :
      s.over (lines.map dropReturn) = s.over lines := by
    simp only [Scan.over, List.foldl_map, trim_dropReturn]
  have hempty (s : Scan) : s.over [[]] = s := rfl
  obtain ⟨front, last, hlines⟩ : ∃ front last, splitLines text = front ++ [last] :=
    ⟨_, _, (List.dropLast_concat_getLast (splitLines_ne_nil text)).symm⟩
  rw [Text.lines, hlines]
  simp only [List.dropLast_concat, List.getLast?_concat, Option.getD_some, happend, hreturns]
  cases last with
  | nil => exact (hempty _).symm
  | cons c last => rfl

/-- What is said about a text, in terms of its lines. -/
theorem analyze_eq (source : String) :
    (analyze source).maxNesting = peak 0 (splitLines source.toList) ∧
      (analyze source).growth = if (splitLines source.toList).any scalesLevel then .logarithmic
        else .ofNesting (peak 0 (splitLines source.toList)) := by
  have hlevels := Scan.levels_lines {} ((Text.lines source.toList).mapIdx fun k line => (k + 1, line))
  have hlines : ((Text.lines source.toList).mapIdx fun k line => (k + 1, line)).map Prod.snd =
      Text.lines source.toList := by
    refine List.ext_getElem (by simp) fun k hk hk' => by simp
  rw [hlines, Scan.over_lines, Scan.over_eq] at hlevels
  have hdeepest := congrArg Scan.deepest hlevels
  have hscaling := congrArg Scan.scaling hlevels
  simp only [Scan.levels, Nat.zero_max, Bool.false_or] at hdeepest hscaling
  unfold analyze Scan.report
  dsimp only
  rw [hdeepest, hscaling]
  exact ⟨rfl, rfl⟩

end Structure

end StepTrace
