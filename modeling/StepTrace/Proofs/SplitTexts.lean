import Mathlib.Data.Nat.Find
import StepTrace.Proofs.LimitedStrings

/-!
# Splitting and joining

`split` cuts a text at the occurrences of the separator, found from the left and none overlapping
the one before (`Text.cut_eq_segments`). So a piece never contains the separator, and there is one
piece more than there are occurrences. The empty separator stands between any two characters.
Joining the pieces with the same separator gives the text back, and since no text is made that is
longer than the one that was cut, `join` does not refuse it (`split_join`).

* `Text.Leftmost`: the positions of the occurrences, without reference to a search.
* `Text.cutFirst?_eq_some`: the search finds the first occurrence.
-/

namespace StepTrace

open Syntax (Location)

namespace Text

variable {piece text before after : List Char} {start position q : Nat} {positions : List Nat}

/-- The piece stands in the text at the position. -/
def StandsAt (piece text : List Char) (position : Nat) : Prop :=
  piece <+: text.drop position

/-- The occurrences that are found from the left: the first one begins at `start` or later and
before all others that do, the next one is found in the same way from its end on, and behind the
last one there is no other. -/
inductive Leftmost (piece text : List Char) : Nat → List Nat → Prop
  | last {start : Nat} (hnone : ∀ q, start ≤ q → ¬ StandsAt piece text q) :
    Leftmost piece text start []
  | next {start position : Nat} {positions : List Nat} (hle : start ≤ position)
    (hstands : StandsAt piece text position)
    (hfirst : ∀ q, start ≤ q → q < position → ¬ StandsAt piece text q)
    (hrest : Leftmost piece text (position + piece.length) positions) :
    Leftmost piece text start (position :: positions)

/-! ## Occurrences -/

theorem infix_iff_standsAt : piece <:+: text ↔ ∃ position, StandsAt piece text position := by
  constructor
  · rintro ⟨before, after, rfl⟩
    refine ⟨before.length, ?_⟩
    rw [StandsAt, List.append_assoc, List.drop_left]
    exact List.prefix_append piece after
  · rintro ⟨position, h⟩
    exact h.isInfix.trans (List.drop_suffix position text).isInfix

theorem standsAt_drop : StandsAt piece (text.drop start) q ↔ StandsAt piece text (start + q) := by
  rw [StandsAt, List.drop_drop, StandsAt]

theorem StandsAt.add_length_le (hpiece : piece ≠ []) (h : StandsAt piece text position) :
    position + piece.length ≤ text.length := by
  have hpos : 0 < piece.length := List.length_pos_iff.mpr hpiece
  have hle := h.length_le
  rw [List.length_drop] at hle
  omega

/-- An occurrence is also one in a text that goes on. -/
theorem StandsAt.append (h : StandsAt piece before position) (hle : position ≤ before.length)
    (after : List Char) : StandsAt piece (before ++ after) position := by
  rw [StandsAt, List.drop_append_of_le_length hle]
  exact h.trans (List.prefix_append _ after)

theorem Leftmost.unique {positions' : List Nat} (h : Leftmost piece text start positions)
    (h' : Leftmost piece text start positions') : positions = positions' := by
  induction h generalizing positions' with
  | last hnone =>
      cases h' with
      | last _ => rfl
      | next hle hstands _ _ => exact absurd hstands (hnone _ hle)
  | @next start position positions hle hstands hfirst _ ih =>
      cases h' with
      | last hnone => exact absurd hstands (hnone _ hle)
      | @next _ position' positions' hle' hstands' hfirst' hrest' =>
          -- neither of the two first occurrences stands before the other
          have hsame : position = position' := by
            apply Nat.le_antisymm
            · exact Nat.le_of_not_lt fun hlt => hfirst _ hle' hlt hstands'
            · exact Nat.le_of_not_lt fun hlt => hfirst' _ hle hlt hstands
          subst hsame
          rw [ih hrest']

open Classical in
theorem exists_leftmost (hpiece : piece ≠ []) (text : List Char) (start : Nat) :
    ∃ positions, Leftmost piece text start positions := by
  generalize hleft : text.length - start = left
  induction left using Nat.strongRecOn generalizing start with
  | ind left ih =>
      by_cases hfound : ∃ q, start ≤ q ∧ StandsAt piece text q
      · obtain ⟨hle, hstands⟩ := Nat.find_spec hfound
        have hpos : 0 < piece.length := List.length_pos_iff.mpr hpiece
        have hend := hstands.add_length_le hpiece
        obtain ⟨positions, hrest⟩ := ih _ (by omega) (Nat.find hfound + piece.length) rfl
        exact ⟨_, .next hle hstands (fun q hq hlt h => Nat.find_min hfound hlt ⟨hq, h⟩) hrest⟩
      · exact ⟨[], .last fun q hq h => hfound ⟨q, hq, h⟩⟩

/-! ## The search -/

theorem not_standsAt_of_cutFirst? (hpiece : piece ≠ []) (h : cutFirst? piece text = none)
    (q : Nat) : ¬ StandsAt piece text q := by
  induction text generalizing q with
  | nil =>
      intro hstands
      rw [StandsAt, List.drop_nil] at hstands
      exact hpiece (List.prefix_nil.mp hstands)
  | cons c rest ih =>
      rw [cutFirst?] at h
      split at h
      · cases h
      · next hhead =>
          cases q with
          | zero => exact fun hstands => hhead (List.isPrefixOf_iff_prefix.mpr hstands)
          | succ q => exact ih (Option.map_eq_none_iff.mp h) q

theorem standsAt_of_cutFirst? (h : cutFirst? piece text = some (before, after)) :
    StandsAt piece text before.length := by
  rw [eq_of_cutFirst? h, List.append_assoc, StandsAt, List.drop_left]
  exact List.prefix_append piece after

/-- What stands before the occurrence that is found begins no other one. -/
theorem not_standsAt_of_lt (h : cutFirst? piece text = some (before, after))
    (hq : q < before.length) : ¬ StandsAt piece text q := by
  induction text generalizing before q with
  | nil =>
      rw [cutFirst?] at h
      split at h
      · cases h
        exact absurd hq (Nat.not_lt_zero q)
      · cases h
  | cons c rest ih =>
      rw [cutFirst?] at h
      split at h
      · cases h
        exact absurd hq (Nat.not_lt_zero q)
      · next hhead =>
          obtain ⟨⟨found, behind⟩, hfound, hsame⟩ := Option.map_eq_some_iff.mp h
          cases hsame
          cases q with
          | zero => exact fun hstands => hhead (List.isPrefixOf_iff_prefix.mpr hstands)
          | succ q => exact ih hfound (Nat.lt_of_succ_lt_succ hq)

/-- The search cuts the text at the first occurrence. -/
theorem cutFirst?_eq_some (hpiece : piece ≠ []) (hstands : StandsAt piece text position)
    (hfirst : ∀ q < position, ¬ StandsAt piece text q) :
    cutFirst? piece text =
      some (text.take position, text.drop (position + piece.length)) := by
  cases hcut : cutFirst? piece text with
  | none => exact absurd hstands (not_standsAt_of_cutFirst? hpiece hcut position)
  | some cut =>
      obtain ⟨before, after⟩ := cut
      have hsame : position = before.length := by
        apply Nat.le_antisymm
        · exact Nat.le_of_not_lt fun hlt => hfirst _ hlt (standsAt_of_cutFirst? hcut)
        · exact Nat.le_of_not_lt fun hlt => not_standsAt_of_lt hcut hlt hstands
      rw [hsame, eq_of_cutFirst? hcut, ← List.length_append, List.drop_left, List.append_assoc,
        List.take_left]

/-! ## The pieces -/

/-- The parts of a text from `start` on, between occurrences of the given width. -/
def segments (width : Nat) (text : List Char) (start : Nat) : List Nat → List (List Char)
  | [] => [text.drop start]
  | position :: positions =>
    (text.drop start).take (position - start) :: segments width text (position + width) positions

theorem length_segments (width : Nat) (text : List Char) (start : Nat) (positions : List Nat) :
    (segments width text start positions).length = positions.length + 1 := by
  induction positions generalizing start with
  | nil => rfl
  | cons position positions ih => rw [segments, List.length_cons, ih, List.length_cons]

theorem cut_of_none (hpiece : piece ≠ []) (h : cutFirst? piece text = none) :
    cut piece text = [text] := by
  rw [cut, dif_neg hpiece]
  split
  · rfl
  · next hsome => rw [h] at hsome; cases hsome

theorem cut_of_some (hpiece : piece ≠ []) (h : cutFirst? piece text = some (before, after)) :
    cut piece text = before :: cut piece after := by
  rw [cut, dif_neg hpiece]
  split
  · next hnone => rw [h] at hnone; cases hnone
  · next hsome => rw [h] at hsome; cases hsome; rfl

/-- The pieces are what stands between the occurrences that are found from the left. -/
theorem cut_eq_segments (hpiece : piece ≠ []) (h : Leftmost piece text start positions) :
    cut piece (text.drop start) = segments piece.length text start positions := by
  induction h with
  | @last start hnone =>
      cases hcut : cutFirst? piece (text.drop start) with
      | none => exact cut_of_none hpiece hcut
      | some cut =>
          have hstands := standsAt_drop.mp (standsAt_of_cutFirst? hcut)
          exact absurd hstands (hnone _ (Nat.le_add_right start _))
  | @next start position positions hle hstands hfirst _ ih =>
      have hsum : start + (position - start) = position := Nat.add_sub_cancel' hle
      have hstands' : StandsAt piece (text.drop start) (position - start) :=
        standsAt_drop.mpr (hsum.symm ▸ hstands)
      have hfirst' : ∀ q < position - start, ¬ StandsAt piece (text.drop start) q := by
        intro q hq h
        exact hfirst _ (Nat.le_add_right start q) (by omega) (standsAt_drop.mp h)
      have hfound := cutFirst?_eq_some hpiece hstands' hfirst'
      rw [List.drop_drop, ← Nat.add_assoc, hsum] at hfound
      rw [cut_of_some hpiece hfound, segments, ih]

/-- Characters with nothing between them are the text. -/
theorem join_characters (text : List Char) : join [] (text.map fun c => [c]) = text := by
  induction text with
  | nil => rfl
  | cons c rest ih =>
      by_cases hrest : rest = []
      · subst hrest
        rfl
      · have hne : rest.map (fun c => [c]) ≠ [] := fun h => hrest (List.map_eq_nil_iff.mp h)
        rw [List.map_cons, join, List.intercalate_cons_of_ne_nil hne, ← join, ih]
        rfl

theorem not_infix_of_mem_cut (hpiece : piece ≠ []) {part : List Char}
    (h : part ∈ cut piece text) : ¬ piece <:+: part := by
  fun_induction cut piece text with
  | case1 text hempty => exact absurd hempty hpiece
  | case2 text _ hnone =>
      rw [List.mem_singleton.mp h, infix_iff_standsAt]
      rintro ⟨q, hstands⟩
      exact not_standsAt_of_cutFirst? hpiece hnone q hstands
  | case3 text _ before after hcut _ ih =>
      rcases List.mem_cons.mp h with rfl | h
      · rw [infix_iff_standsAt]
        rintro ⟨q, hstands⟩
        -- an occurrence in the piece would begin before the one that was found
        have hpos : 0 < piece.length := List.length_pos_iff.mpr hpiece
        have hend := hstands.add_length_le hpiece
        apply not_standsAt_of_lt hcut (q := q) (by omega)
        rw [eq_of_cutFirst? hcut, List.append_assoc]
        exact hstands.append (by omega) (piece ++ after)
      · exact ih h

end Text

namespace Builtin

/-- The texts that `split` puts into its array. -/
def pieces (separator text : String) : List String :=
  if separator.isEmpty then text.toList.map Char.toString
  else (Text.cut separator.toList text.toList).map String.ofList

theorem splitText_string (heap : Heap) (separator text : String) :
    splitText heap text [.string separator] = (pieces separator text).map Value.string := by
  have hgiven : given? [.string separator] 0 = some (.string separator) := rfl
  have htext : (Value.string separator).text heap = separator := rfl
  rw [splitText, hgiven]
  dsimp only
  rw [htext, pieces]
  split
  · rw [List.map_map]
    rfl
  · rw [List.map_map]
    rfl

/-- Joining undoes splitting. -/
theorem intercalate_pieces (separator text : String) :
    separator.intercalate (pieces separator text) = text := by
  rw [← String.toList_inj, String.toList_intercalate, pieces]
  split
  · next hempty =>
      have hchars : (text.toList.map Char.toString).map String.toList =
          text.toList.map fun c => [c] := by
        rw [List.map_map]
        simp [Function.comp_def]
      rw [String.isEmpty_iff.mp hempty, hchars]
      exact Text.join_characters text.toList
  · have hlists : ∀ parts : List (List Char),
        (parts.map String.ofList).map String.toList = parts := by
      intro parts
      rw [List.map_map]
      simp [Function.comp_def]
    rw [hlists]
    exact Text.join_cut separator.toList text.toList

theorem joinedText_pieces (heap : Heap) (separator text : String) :
    joinedText heap ((pieces separator text).map Value.string).toArray separator = text := by
  have htexts : ((pieces separator text).map Value.string).map
      (fun item => if item.isNullish then "" else item.text heap) = pieces separator text := by
    rw [List.map_map]
    exact List.map_id _
  rw [joinedText, htexts, intercalate_pieces]

theorem split_apply (call : Caller) (separator text : String) (loc : Location) (s : State) :
    (Value.string text).callMethod call "split" [.string separator] loc s =
      Eval.newUnchecked ((pieces separator text).map Value.string).toArray s := by
  rw [← splitText_string s.heap]
  rfl

theorem join_apply (call : Caller) (separator : String) (array : Nat) (loc : Location)
    (s : State) :
    (Value.array array).callMethod call "join" [.string separator] loc s =
      if (joinedText s.heap (s.heap.items array) separator).utf8ByteSize ≤ Limit.stringLength then
        .done (.string (joinedText s.heap (s.heap.items array) separator)) s
      else .stopped (.fault ⟨.stringLength, loc⟩) s :=
  Composition.run_eq (.join array "join" (Or.inl rfl) [.string separator]) call loc s trivial

/-- **Splitting and joining.** A text that is within the limit is split into a new array, and
joining that array with the same separator, any text, gives the text back. Unless the separator is
empty, no piece contains it, and there is one piece more than there are occurrences of the separator
when they are taken from the left and without overlap; there is one way to take them. With the empty
separator the pieces are the characters. -/
theorem split_join (call : Caller) (separator text : String) (loc loc' : Location) (s : State)
    (hlimit : text.utf8ByteSize ≤ Limit.stringLength) :
    ∃ (parts : List String) (s' : State),
      (Value.string text).callMethod call "split" [.string separator] loc s =
        .done (.array s.heap.arrays.size) s' ∧
      (s'.heap.items s.heap.arrays.size).toList = parts.map Value.string ∧
      (Value.array s.heap.arrays.size).callMethod call "join" [.string separator] loc' s' =
        .done (.string text) s' ∧
      (separator ≠ "" → (∀ part ∈ parts, ¬ separator.toList <:+: part.toList) ∧
        ∃ positions, (∀ found, Text.Leftmost separator.toList text.toList 0 found ↔
            found = positions) ∧
          parts.length = positions.length + 1) ∧
      (separator = "" → parts = text.toList.map Char.toString) := by
  have hitems : ((s.changeHeap
      (·.addArray ((pieces separator text).map Value.string).toArray)).record
        (.unchecked s.heap.arrays.size)).heap.items s.heap.arrays.size =
      ((pieces separator text).map Value.string).toArray := s.heap.items_addArray _
  refine ⟨pieces separator text, _, split_apply call separator text loc s, by rw [hitems], ?_, ?_,
    ?_⟩
  · rw [join_apply, hitems, joinedText_pieces, if_pos hlimit]
  · intro hne
    have hpiece : separator.toList ≠ [] := fun h => hne (String.toList_eq_nil_iff.mp h)
    have hpieces : pieces separator text =
        (Text.cut separator.toList text.toList).map String.ofList :=
      if_neg fun h => hne (String.isEmpty_iff.mp h)
    obtain ⟨positions, hleftmost⟩ := Text.exists_leftmost hpiece text.toList 0
    have hcut := Text.cut_eq_segments hpiece hleftmost
    rw [List.drop_zero] at hcut
    rw [hpieces]
    constructor
    · intro part hpart
      obtain ⟨chars, hchars, rfl⟩ := List.mem_map.mp hpart
      rw [String.toList_ofList]
      exact Text.not_infix_of_mem_cut hpiece hchars
    · refine ⟨positions, fun found => ⟨fun h => h.unique hleftmost, fun h => h ▸ hleftmost⟩, ?_⟩
      rw [List.length_map, hcut, Text.length_segments]
  · rintro rfl
    rfl

/-- The separator `aa` stands at the front, and in `aaa` it overlaps itself. -/
theorem split_join_overlapping :
    "aaxaaa".utf8ByteSize ≤ Limit.stringLength ∧
      ∃ (parts : List String) (s' : State),
        (Value.string "aaxaaa").callMethod (callWithin [] 0) "split" [.string "aa"] ⟨1, 9⟩
            .initial = .done (.array 0) s' ∧
          (Value.array 0).callMethod (callWithin [] 0) "join" [.string "aa"] ⟨2, 9⟩ s' =
            .done (.string "aaxaaa") s' ∧
          (s'.heap.items 0).toList = parts.map Value.string ∧ parts.length = 3 := by
  have hlimit : "aaxaaa".utf8ByteSize ≤ Limit.stringLength := by decide
  have hpositions : Text.Leftmost "aa".toList "aaxaaa".toList 0 [0, 3] := by
    have hnone : ∀ q, 5 ≤ q → ¬ Text.StandsAt ['a', 'a'] ['a', 'a', 'x', 'a', 'a', 'a'] q := by
      intro q hq hstands
      have hend := hstands.add_length_le (List.cons_ne_nil _ _)
      change q + 2 ≤ 6 at hend
      omega
    have hbetween : ∀ q, 2 ≤ q → q < 3 →
        ¬ Text.StandsAt ['a', 'a'] ['a', 'a', 'x', 'a', 'a', 'a'] q := by
      intro q hq hlt
      obtain rfl : q = 2 := by omega
      rw [Text.StandsAt]
      decide
    refine .next (Nat.le_refl 0) (by rw [Text.StandsAt]; decide) (fun q _ hlt => by omega) ?_
    exact .next (by decide) (by rw [Text.StandsAt]; decide) hbetween (.last hnone)
  obtain ⟨parts, s', hsplit, hitems, hjoin, hparts, -⟩ :=
    split_join (callWithin [] 0) "aa" "aaxaaa" ⟨1, 9⟩ ⟨2, 9⟩ .initial hlimit
  obtain ⟨-, positions, hunique, hlength⟩ := hparts (by decide)
  obtain rfl := (hunique _).mp hpositions
  exact ⟨hlimit, parts, s', hsplit, hjoin, hitems, hlength⟩

end Builtin

end StepTrace
