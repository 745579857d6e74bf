/-!
# Searching and cutting text

Occurrences of a piece of text are found from the left and do not overlap. Cutting at
them and joining again with the same piece gives the text back.

* `join_cut`: joining undoes cutting.
* `infix_of_mem_cut`: the pieces that are cut off stand in the text.
-/

namespace StepTrace.Text

/-- Cuts `text` in front of the first occurrence of `piece`: what stands before it and
what stands after it. -/
def cutFirst? (piece : List Char) : List Char → Option (List Char × List Char)
  | [] => if piece.isEmpty then some ([], []) else none
  | c :: rest =>
    if piece.isPrefixOf (c :: rest) then some ([], (c :: rest).drop piece.length)
    else (cutFirst? piece rest).map fun (before, after) => (c :: before, after)

theorem eq_of_cutFirst? {piece text before after : List Char}
    (h : cutFirst? piece text = some (before, after)) : text = before ++ piece ++ after := by
  induction text generalizing before with
  | nil =>
    simp only [cutFirst?] at h
    split at h
    · simp_all
    · simp at h
  | cons c rest ih =>
    simp only [cutFirst?] at h
    split at h
    · rename_i hp
      obtain ⟨tail, ht⟩ := List.isPrefixOf_iff_prefix.1 hp
      simp only [Option.some.injEq, Prod.mk.injEq] at h
      obtain ⟨rfl, rfl⟩ := h
      simp [← ht]
    · obtain ⟨⟨b, a⟩, hb, he⟩ := Option.map_eq_some_iff.1 h
      simp only [Prod.mk.injEq] at he
      obtain ⟨rfl, rfl⟩ := he
      simp [ih hb]

theorem length_after_of_cutFirst? {piece text before after : List Char} (hp : piece ≠ [])
    (h : cutFirst? piece text = some (before, after)) : after.length < text.length := by
  have hl : 0 < piece.length := List.length_pos_iff.2 hp
  have := congrArg List.length (eq_of_cutFirst? h)
  simp only [List.length_append] at this
  omega

/-- The pieces of `text` between the occurrences of `separator`, which must not be
empty: for the empty separator the text is one piece. -/
def cut (separator text : List Char) : List (List Char) :=
  if hs : separator = [] then [text]
  else match h : cutFirst? separator text with
    | none => [text]
    | some (before, after) =>
      have := length_after_of_cutFirst? hs h
      before :: cut separator after
termination_by text.length

/-- The pieces with the separator between any two of them. -/
def join (separator : List Char) (pieces : List (List Char)) : List Char :=
  separator.intercalate pieces

/-- Whether the piece occurs in the text. -/
def occursIn (piece text : List Char) : Bool :=
  (cutFirst? piece text).isSome

/-- The text with every occurrence of `piece` replaced. -/
def replaceAll (piece replacement text : List Char) : List Char :=
  join replacement (cut piece text)

theorem cut_ne_nil (separator text : List Char) : cut separator text ≠ [] := by
  rw [cut]
  split
  · simp
  · split <;> simp

theorem infix_of_mem_cut {separator text piece : List Char} (h : piece ∈ cut separator text) :
    piece <:+: text := by
  fun_induction cut separator text with
  | case1 text => exact List.mem_singleton.mp h ▸ List.infix_rfl
  | case2 text => exact List.mem_singleton.mp h ▸ List.infix_rfl
  | case3 text hs before after hcut hlength ih =>
      have htext := eq_of_cutFirst? hcut
      rcases List.mem_cons.mp h with rfl | h
      · exact ⟨[], separator ++ after, by rw [htext]; simp⟩
      · exact (ih h).trans ⟨before ++ separator, [], by rw [htext]; simp⟩

theorem join_cut (separator text : List Char) : join separator (cut separator text) = text := by
  fun_induction cut separator text with
  | case1 => simp [join]
  | case2 => simp [join]
  | case3 text _ before after h _ ih =>
    have ht := eq_of_cutFirst? h
    cases hc : cut separator after with
    | nil => exact absurd hc (cut_ne_nil _ _)
    | cons piece others =>
      rw [hc] at ih
      simp only [join, List.intercalate] at ih ⊢
      simp [List.intersperse, ht, ih]

end StepTrace.Text
