import StepTrace.Pattern.Search

/-!
# The texts that a pattern describes

What a match covers, and what its groups captured, can be read off the pattern without the
search that found it. A pattern spells texts (`Spells`). It occurs between a character and the text
behind if it spells what stands there and the conditions on places hold, which look at the
characters on either side (`Occurs`). Every place to which `flow` comes is behind an occurrence
(`arrives_of_mem_flow`), and so behind a text that the pattern spells (`reaches_of_mem_flow`).

* `Match.Fits`: the match covers a text that the pattern spells.
* `flatMap_cuts`, `fits_of_mem_cuts`: a text is cut at matches that fit, and nothing is lost.
-/

namespace StepTrace.Pattern

/-- The pattern spells the text, and its groups capture these pieces, the latest first. -/
inductive Spells : Pattern → List Char → List (Nat × List Char) → Prop
  | empty : Spells .empty [] []
  | char {test : Char → Bool} {c : Char} (hc : test c = true) : Spells (.char test) [c] []
  | run {least : Nat} {test : Char → Bool} {text : List Char} (hleast : least ≤ text.length)
    (htext : ∀ c ∈ text, test c = true) : Spells (.run least test) text []
  | reluctantRun {least : Nat} {test : Char → Bool} {text : List Char}
    (hleast : least ≤ text.length) (htext : ∀ c ∈ text, test c = true) :
    Spells (.reluctantRun least test) text []
  | anchor {condition : Anchor} : Spells (.anchor condition) [] []
  | seq {first second : Pattern} {text text' : List Char} {groups groups' : List (Nat × List Char)}
    (h : Spells first text groups) (h' : Spells second text' groups') :
    Spells (.seq first second) (text ++ text') (groups' ++ groups)
  | altFirst {first second : Pattern} {text : List Char} {groups : List (Nat × List Char)}
    (h : Spells first text groups) : Spells (.alt first second) text groups
  | altSecond {first second : Pattern} {text : List Char} {groups : List (Nat × List Char)}
    (h : Spells second text groups) : Spells (.alt first second) text groups
  | manyNone {body : Pattern} : Spells (.many body) [] []
  | manyMore {body : Pattern} {text text' : List Char} {groups groups' : List (Nat × List Char)}
    (h : Spells body text groups) (h' : Spells (.many body) text' groups') :
    Spells (.many body) (text ++ text') (groups' ++ groups)
  | group {number : Nat} {body : Pattern} {text : List Char} {groups : List (Nat × List Char)}
    (h : Spells body text groups) : Spells (.group number body) text ((number, text) :: groups)

/-- A group captures a piece of the text. -/
theorem Spells.infix_of_mem {pattern : Pattern} {text : List Char}
    {groups : List (Nat × List Char)} (h : Spells pattern text groups) :
    ∀ g ∈ groups, g.2 <:+: text := by
  induction h with
  | empty | char | run | reluctantRun | anchor | manyNone => exact List.forall_mem_nil _
  | altFirst _ ih => exact ih
  | altSecond _ ih => exact ih
  | group _ ih => exact List.forall_mem_cons.mpr ⟨List.infix_rfl, ih⟩
  | seq _ _ ih ih' | manyMore _ _ ih ih' =>
      refine List.forall_mem_append.mpr ⟨fun g hg => ?_, fun g hg => ?_⟩
      · exact (ih' g hg).trans (List.suffix_append _ _).isInfix
      · exact (ih g hg).trans (List.prefix_append _ _).isInfix

/-- Every character that the pattern may read has the property. -/
def Within (p : Char → Prop) : Pattern → Prop
  | .empty => True
  | .char test => ∀ c, test c = true → p c
  | .run _ test => ∀ c, test c = true → p c
  | .reluctantRun _ test => ∀ c, test c = true → p c
  | .anchor _ => True
  | .seq first second => first.Within p ∧ second.Within p
  | .alt first second => first.Within p ∧ second.Within p
  | .many body => body.Within p
  | .group _ body => body.Within p

theorem Spells.within {p : Char → Prop} {pattern : Pattern} {text : List Char}
    {groups : List (Nat × List Char)} (h : Spells pattern text groups) (hp : pattern.Within p) :
    ∀ c ∈ text, p c := by
  induction h with
  | empty | anchor | manyNone => exact List.forall_mem_nil _
  | char hc => exact List.forall_mem_singleton.mpr (hp _ hc)
  | run _ htext | reluctantRun _ htext => exact fun c hc => hp c (htext c hc)
  | seq _ _ ih ih' => exact List.forall_mem_append.mpr ⟨ih hp.1, ih' hp.2⟩
  | altFirst _ ih => exact ih hp.1
  | altSecond _ ih => exact ih hp.2
  | manyMore _ _ ih ih' => exact List.forall_mem_append.mpr ⟨ih hp, ih' hp⟩
  | group _ ih => exact ih hp

/-- Whether the condition holds between the character and the text behind. -/
def holdsBetween (condition : Anchor) (previous : Option Char) (behind : List Char) : Bool :=
  (⟨0, previous, behind, [], []⟩ : Place).satisfies condition

/-- The pattern spells the text behind the character and in front of the text `behind`, and its
groups capture these pieces, the latest first. -/
inductive Occurs : Pattern → Option Char → List Char → List Char → List (Nat × List Char) → Prop
  | empty {previous : Option Char} {behind : List Char} : Occurs .empty previous [] behind []
  | char {test : Char → Bool} {previous : Option Char} {c : Char} {behind : List Char}
    (hc : test c = true) : Occurs (.char test) previous [c] behind []
  | run {least : Nat} {test : Char → Bool} {previous : Option Char} {text behind : List Char}
    (hleast : least ≤ text.length) (htext : ∀ c ∈ text, test c = true) :
    Occurs (.run least test) previous text behind []
  | reluctantRun {least : Nat} {test : Char → Bool} {previous : Option Char}
    {text behind : List Char} (hleast : least ≤ text.length) (htext : ∀ c ∈ text, test c = true) :
    Occurs (.reluctantRun least test) previous text behind []
  | anchor {condition : Anchor} {previous : Option Char} {behind : List Char}
    (h : holdsBetween condition previous behind = true) :
    Occurs (.anchor condition) previous [] behind []
  | seq {first second : Pattern} {previous : Option Char} {text text' behind : List Char}
    {groups groups' : List (Nat × List Char)}
    (h : Occurs first previous text (text' ++ behind) groups)
    (h' : Occurs second (text.getLast?.or previous) text' behind groups') :
    Occurs (.seq first second) previous (text ++ text') behind (groups' ++ groups)
  | altFirst {first second : Pattern} {previous : Option Char} {text behind : List Char}
    {groups : List (Nat × List Char)} (h : Occurs first previous text behind groups) :
    Occurs (.alt first second) previous text behind groups
  | altSecond {first second : Pattern} {previous : Option Char} {text behind : List Char}
    {groups : List (Nat × List Char)} (h : Occurs second previous text behind groups) :
    Occurs (.alt first second) previous text behind groups
  | manyNone {body : Pattern} {previous : Option Char} {behind : List Char} :
    Occurs (.many body) previous [] behind []
  | manyMore {body : Pattern} {previous : Option Char} {text text' behind : List Char}
    {groups groups' : List (Nat × List Char)}
    (h : Occurs body previous text (text' ++ behind) groups)
    (h' : Occurs (.many body) (text.getLast?.or previous) text' behind groups') :
    Occurs (.many body) previous (text ++ text') behind (groups' ++ groups)
  | group {number : Nat} {body : Pattern} {previous : Option Char} {text behind : List Char}
    {groups : List (Nat × List Char)} (h : Occurs body previous text behind groups) :
    Occurs (.group number body) previous text behind ((number, text) :: groups)

/-- Without the conditions on places, what occurs is spelled. -/
theorem Occurs.spells {pattern : Pattern} {previous : Option Char} {text behind : List Char}
    {groups : List (Nat × List Char)} (h : Occurs pattern previous text behind groups) :
    Spells pattern text groups := by
  induction h with
  | empty => exact .empty
  | char hc => exact .char hc
  | run hleast htext => exact .run hleast htext
  | reluctantRun hleast htext => exact .reluctantRun hleast htext
  | anchor _ => exact .anchor
  | seq _ _ ih ih' => exact .seq ih ih'
  | altFirst _ ih => exact .altFirst ih
  | altSecond _ ih => exact .altSecond ih
  | manyNone => exact .manyNone
  | manyMore _ _ ih ih' => exact .manyMore ih ih'
  | group _ ih => exact .group ih

/-- A pattern without conditions on places. -/
def isAnchorFree : Pattern → Bool
  | .empty => true
  | .char _ => true
  | .run _ _ => true
  | .reluctantRun _ _ => true
  | .anchor _ => false
  | .seq first second => first.isAnchorFree && second.isAnchorFree
  | .alt first second => first.isAnchorFree && second.isAnchorFree
  | .many body => body.isAnchorFree
  | .group _ body => body.isAnchorFree

/-- What such a pattern spells occurs between any two texts. -/
theorem Spells.occurs {pattern : Pattern} {text : List Char} {groups : List (Nat × List Char)}
    (h : Spells pattern text groups) (hfree : pattern.isAnchorFree = true)
    (previous : Option Char) (behind : List Char) : Occurs pattern previous text behind groups := by
  induction h generalizing previous behind with
  | empty => exact .empty
  | char hc => exact .char hc
  | run hleast htext => exact .run hleast htext
  | reluctantRun hleast htext => exact .reluctantRun hleast htext
  | anchor => cases hfree
  | seq _ _ ih ih' =>
      obtain ⟨hfirst, hsecond⟩ := Bool.and_eq_true_iff.mp hfree
      exact .seq (ih hfirst _ _) (ih' hsecond _ _)
  | altFirst _ ih => exact .altFirst (ih (Bool.and_eq_true_iff.mp hfree).1 _ _)
  | altSecond _ ih => exact .altSecond (ih (Bool.and_eq_true_iff.mp hfree).2 _ _)
  | manyNone => exact .manyNone
  | manyMore _ _ ih ih' => exact .manyMore (ih hfree _ _) (ih' hfree _ _)
  | group _ ih => exact .group (ih hfree _ _)

/-- In front of a word, but not behind a character of one, there is an edge. -/
theorem Spells.occurs_behind_edge {pattern : Pattern} {text : List Char}
    {groups : List (Nat × List Char)} {previous : Option Char} (h : Spells pattern text groups)
    (hfree : pattern.isAnchorFree = true) (hprevious : previous.any Text.isWordChar = false)
    (hword : text.head?.any Text.isWordChar = true) (behind : List Char) :
    Occurs (.seq edge pattern) previous text behind groups := by
  have hhead : (text ++ behind).head?.any Text.isWordChar = true := by
    cases text with
    | nil => cases hword
    | cons c text => exact hword
  have hedge : holdsBetween .wordBoundary previous (text ++ behind) = true := by
    change (previous.any Text.isWordChar != (text ++ behind).head?.any Text.isWordChar) = true
    rw [hprevious, hhead]
    rfl
  have hempty : Occurs edge previous [] (text ++ behind) [] := .anchor hedge
  have hwhole := hempty.seq (h.occurs hfree _ behind)
  rwa [List.append_nil] at hwhole

/-! ## Ways from place to place -/

/-- The pieces captured on the way to the place. -/
def Place.captures (p : Place) : List (Nat × List Char) :=
  p.groups.map fun g => (g.1, g.2.text)

/-- Between the two places stands the text, and on the way the groups are captured. -/
structure Place.Spans (p : Place) (text : List Char) (groups : List (Nat × List Char))
    (q : Place) : Prop where
  rest : p.rest = text ++ q.rest
  pos : q.pos = p.pos + text.length
  previous : q.previous = text.getLast?.or p.previous
  begun : q.begun = p.begun
  captures : q.captures = groups ++ p.captures

/-- From the one place the pattern leads to the other. -/
def Reaches (pattern : Pattern) (p q : Place) : Prop :=
  ∃ text groups, Spells pattern text groups ∧ p.Spans text groups q

namespace Place.Spans

variable {p q r : Place} {text text' : List Char} {groups groups' : List (Nat × List Char)}

theorem refl (p : Place) : p.Spans [] [] p :=
  ⟨rfl, rfl, rfl, rfl, rfl⟩

theorem trans (h : p.Spans text groups q) (h' : q.Spans text' groups' r) :
    p.Spans (text ++ text') (groups' ++ groups) r where
  rest := by rw [h.rest, h'.rest, List.append_assoc]
  pos := by rw [h'.pos, h.pos, List.length_append, Nat.add_assoc]
  previous := by rw [h'.previous, h.previous, List.getLast?_append, Option.or_assoc]
  begun := by rw [h'.begun, h.begun]
  captures := by rw [h'.captures, h.captures, List.append_assoc]

/-- The end of a group that began at the first place. -/
theorem leave (h : (Place.enter p).Spans text groups q) (number : Nat) :
    p.Spans text ((number, text) :: groups) (q.leave number) := by
  have hbegun : q.begun = (p.pos, p.rest) :: p.begun := h.begun
  have hrest : p.rest = text ++ q.rest := h.rest
  have hpos : q.pos = p.pos + text.length := h.pos
  unfold Place.leave
  rw [hbegun]
  refine ⟨hrest, hpos, h.previous, rfl, ?_⟩
  have hsize : q.pos - p.pos = text.length := by omega
  have htext : Captured.text ⟨p.rest, q.pos - p.pos⟩ = text := by
    rw [Captured.text, hsize, hrest, List.take_left]
  change (number, Captured.text ⟨p.rest, q.pos - p.pos⟩) :: q.captures = _
  rw [htext, h.captures]
  rfl

end Place.Spans

/-- From the one place an occurrence of the pattern leads to the other. -/
def Arrives (pattern : Pattern) (p q : Place) : Prop :=
  ∃ text groups, Occurs pattern p.previous text q.rest groups ∧ p.Spans text groups q

namespace Arrives

variable {p q r : Place}

theorem reaches {pattern : Pattern} (h : Arrives pattern p q) : Reaches pattern p q := by
  obtain ⟨text, groups, hoccurs, hspans⟩ := h
  exact ⟨text, groups, hoccurs.spells, hspans⟩

theorem of_spans {pattern : Pattern} {text : List Char} {groups : List (Nat × List Char)}
    (hspans : p.Spans text groups q)
    (h : ∀ behind, Occurs pattern p.previous text behind groups) : Arrives pattern p q :=
  ⟨text, groups, h q.rest, hspans⟩

theorem seq {first second : Pattern} (h : Arrives first p q) (h' : Arrives second q r) :
    Arrives (.seq first second) p r := by
  obtain ⟨text, groups, hoccurs, hspans⟩ := h
  obtain ⟨text', groups', hoccurs', hspans'⟩ := h'
  rw [hspans.previous] at hoccurs'
  rw [hspans'.rest] at hoccurs
  exact ⟨_, _, .seq hoccurs hoccurs', hspans.trans hspans'⟩

theorem manyNone (body : Pattern) (p : Place) : Arrives (.many body) p p :=
  ⟨[], [], .manyNone, .refl p⟩

theorem manyMore {body : Pattern} (h : Arrives body p q) (h' : Arrives (.many body) q r) :
    Arrives (.many body) p r := by
  obtain ⟨text, groups, hoccurs, hspans⟩ := h
  obtain ⟨text', groups', hoccurs', hspans'⟩ := h'
  rw [hspans.previous] at hoccurs'
  rw [hspans'.rest] at hoccurs
  exact ⟨_, _, .manyMore hoccurs hoccurs', hspans.trans hspans'⟩

end Arrives

/-! ## Places that were reached -/

/-- A place that steps come to was reached before, or one of the steps adds it. -/
theorem mem_places_foldl {α : Type} {step : Reached → α → Reached} {list : List α}
    {reached : Reached} {q : Place} (h : q ∈ (list.foldl step reached).places) {Adds : α → Prop}
    (hstep : ∀ reached a, q ∈ (step reached a).places → q ∈ reached.places ∨ Adds a) :
    q ∈ reached.places ∨ ∃ a ∈ list, Adds a := by
  induction list generalizing reached with
  | nil => exact Or.inl h
  | cons a list ih =>
      rcases ih h with h | ⟨b, hb, hadds⟩
      · exact (hstep reached a h).imp_right fun hadds => ⟨a, List.mem_cons_self, hadds⟩
      · exact Or.inr ⟨b, List.mem_cons_of_mem _ hb, hadds⟩

theorem mem_inOrder_foldl {α : Type} {step : Reached → α → Reached} {list : List α} {q : Place}
    (h : q ∈ (list.foldl step .nothing).inOrder) {Adds : α → Prop}
    (hstep : ∀ reached a, q ∈ (step reached a).places → q ∈ reached.places ∨ Adds a) :
    ∃ a ∈ list, Adds a := by
  rcases mem_places_foldl (List.mem_reverse.mp h) hstep with hnone | h
  · cases hnone
  · exact h

theorem mem_places_add {reached : Reached} {p q : Place} (h : q ∈ (reached.add p).places) :
    q ∈ reached.places ∨ q = p := by
  unfold Reached.add at h
  split at h
  · exact Or.inl h
  · exact (List.mem_cons.mp h).symm

/-! ## Characters and runs of them -/

theorem rest_of_next? {p : Place} (h : p.next? = none) : p.rest = [] := by
  unfold Place.next? at h
  split at h
  · assumption
  · cases h

theorem spans_of_next? {p q : Place} {c : Char} (h : p.next? = some (c, q)) :
    p.Spans [c] [] q := by
  unfold Place.next? at h
  split at h
  · cases h
  · rename_i hrest
    cases h
    exact ⟨hrest, rfl, rfl, rfl, rfl⟩

theorem spans_of_step? {test : Char → Bool} {p q : Place} (h : p.step? test = some q) :
    ∃ c, test c = true ∧ p.Spans [c] [] q := by
  unfold Place.step? at h
  split at h
  · rename_i c next hnext
    split at h
    · rename_i hc
      cases h
      exact ⟨c, hc, spans_of_next? hnext⟩
    · cases h
  · cases h

theorem spans_of_steps? {test : Char → Bool} {n : Nat} {p q : Place}
    (h : Place.steps? test n p = some q) :
    ∃ text, text.length = n ∧ (∀ c ∈ text, test c = true) ∧ p.Spans text [] q := by
  induction n generalizing p with
  | zero =>
      cases h
      exact ⟨[], rfl, List.forall_mem_nil _, .refl _⟩
  | succ n ih =>
      obtain ⟨middle, hstep, hsteps⟩ := Option.bind_eq_some_iff.mp h
      obtain ⟨c, hc, hspans⟩ := spans_of_step? hstep
      obtain ⟨text, rfl, htext, hspans'⟩ := ih hsteps
      exact ⟨c :: text, rfl, List.forall_mem_cons.mpr ⟨hc, htext⟩, hspans.trans hspans'⟩

theorem spans_of_mem_stretch {test : Char → Bool} {seen : Positions} {start : Place} {q : Place}
    {pos : Nat} {previous : Option Char} {rest : List Char} {nearer : List Place}
    (h : q ∈ stretch test seen start pos previous rest nearer) :
    q ∈ nearer ∨ ∃ text, (∀ c ∈ text, test c = true) ∧
      ({ start with pos, previous, rest } : Place).Spans text [] q := by
  induction rest generalizing pos previous nearer with
  | nil =>
      unfold stretch at h
      split at h
      · exact Or.inl h
      · rcases List.mem_cons.mp h with rfl | h
        · exact Or.inr ⟨[], List.forall_mem_nil _, .refl _⟩
        · exact Or.inl h
  | cons c rest ih =>
      unfold stretch at h
      dsimp only at h
      -- the place in front of the character, or one behind it
      have hhere : q ∈ { start with pos, previous, rest := c :: rest } :: nearer →
          q ∈ nearer ∨ ∃ text, (∀ c ∈ text, test c = true) ∧
            ({ start with pos, previous, rest := c :: rest } : Place).Spans text [] q := by
        intro h
        rcases List.mem_cons.mp h with rfl | h
        · exact Or.inr ⟨[], List.forall_mem_nil _, .refl _⟩
        · exact Or.inl h
      split at h
      · exact Or.inl h
      · split at h
        · rename_i hc
          rcases ih h with h | ⟨text, htext, hspans⟩
          · exact hhere h
          · refine Or.inr ⟨c :: text, List.forall_mem_cons.mpr ⟨hc, htext⟩, ?_⟩
            have hstep : ({ start with pos, previous, rest := c :: rest } : Place).Spans [c] []
                { start with pos := pos + 1, previous := some c, rest } :=
              ⟨rfl, rfl, rfl, rfl, rfl⟩
            exact hstep.trans hspans
        · exact hhere h

theorem spans_of_mem_spread {isReluctant : Bool} {test : Char → Bool} {places : List Place}
    {q : Place} (h : q ∈ spread isReluctant test places) :
    ∃ p ∈ places, ∃ text, (∀ c ∈ text, test c = true) ∧ p.Spans text [] q := by
  refine mem_inOrder_foldl h fun reached p h => ?_
  rcases List.mem_append.mp h with h | h
  · have hfound : q ∈ stretch test reached.seen p p.pos p.previous p.rest [] := by
      cases isReluctant with
      | false => exact List.mem_reverse.mp h
      | true => exact h
    rcases spans_of_mem_stretch hfound with hnone | hspans
    · cases hnone
    · exact Or.inr hspans
  · exact Or.inl h

/-- Places behind a run of characters, of which there are enough. -/
theorem spans_of_mem_run {isReluctant : Bool} {least : Nat} {test : Char → Bool}
    {places : List Place} {q : Place}
    (h : q ∈ spread isReluctant test (places.filterMap (Place.steps? test least))) :
    ∃ p ∈ places, ∃ text, least ≤ text.length ∧ (∀ c ∈ text, test c = true) ∧
      p.Spans text [] q := by
  obtain ⟨middle, hmiddle, more, hmore, hspans'⟩ := spans_of_mem_spread h
  obtain ⟨p, hp, hsteps⟩ := List.mem_filterMap.mp hmiddle
  obtain ⟨text, hlength, htext, hspans⟩ := spans_of_steps? hsteps
  refine ⟨p, hp, text ++ more, ?_, List.forall_mem_append.mpr ⟨htext, hmore⟩,
    hspans.trans hspans'⟩
  rw [List.length_append]
  omega

/-! ## Alternatives and repetitions -/

theorem mem_of_mem_distinct {places : List Place} {q : Place} (h : q ∈ distinct places) :
    q ∈ places := by
  obtain ⟨p, hp, rfl⟩ := mem_inOrder_foldl h fun _ _ => mem_places_add
  exact hp

/-- What a sweep adds is the place itself or is reached from it by repetitions. -/
theorem arrives_of_mem_sweep {body : Pattern} {step : Place → List Place} {p q : Place}
    (hstep : ∀ p, ∀ q ∈ step p, Arrives body p q) (limit : Nat) (reached : Reached)
    (h : q ∈ (sweep step limit reached p).places) :
    q ∈ reached.places ∨ Arrives (.many body) p q := by
  induction limit generalizing reached p with
  | zero =>
      rcases mem_places_add h with h | rfl
      · exact Or.inl h
      · exact Or.inr (.manyNone body q)
  | succ limit ih =>
      unfold sweep at h
      dsimp only at h
      split at h
      · exact Or.inl h
      · rcases List.mem_cons.mp h with rfl | h
        · exact Or.inr (.manyNone body q)
        · rcases mem_places_foldl h fun reached p => ih reached with h | ⟨middle, hmiddle, h⟩
          · exact Or.inl h
          · exact Or.inr ((hstep p middle hmiddle).manyMore h)

/-! ## All patterns -/

theorem Place.rest_leave (number : Nat) (p : Place) : (p.leave number).rest = p.rest := by
  unfold Place.leave
  split <;> rfl

/-- Every place to which `flow` comes is behind an occurrence of the pattern. -/
theorem arrives_of_mem_flow {pattern : Pattern} {limit : Nat} {places : List Place} {q : Place}
    (h : q ∈ pattern.flow limit places) :
    ∃ p ∈ places, Arrives pattern p q := by
  induction pattern generalizing places q with
  | empty => exact ⟨q, h, [], [], .empty, .refl q⟩
  | char test =>
      obtain ⟨p, hp, hstep⟩ := List.mem_filterMap.mp h
      obtain ⟨c, hc, hspans⟩ := spans_of_step? hstep
      exact ⟨p, hp, .of_spans hspans fun _ => .char hc⟩
  | run least test =>
      obtain ⟨p, hp, text, hleast, htext, hspans⟩ := spans_of_mem_run h
      exact ⟨p, hp, .of_spans hspans fun _ => .run hleast htext⟩
  | reluctantRun least test =>
      obtain ⟨p, hp, text, hleast, htext, hspans⟩ := spans_of_mem_run h
      exact ⟨p, hp, .of_spans hspans fun _ => .reluctantRun hleast htext⟩
  | anchor condition =>
      obtain ⟨hq, hholds⟩ := List.mem_filter.mp h
      exact ⟨q, hq, [], [], .anchor hholds, .refl q⟩
  | seq first second ihfirst ihsecond =>
      obtain ⟨middle, hmiddle, harrives'⟩ := ihsecond h
      obtain ⟨p, hp, harrives⟩ := ihfirst hmiddle
      exact ⟨p, hp, harrives.seq harrives'⟩
  | alt first second ihfirst ihsecond =>
      obtain ⟨p, hp, h⟩ := List.mem_flatMap.mp (mem_of_mem_distinct h)
      rcases List.mem_append.mp h with h | h
      · obtain ⟨p', hp', text, groups, hoccurs, hspans⟩ := ihfirst h
        cases List.mem_singleton.mp hp'
        exact ⟨p, hp, text, groups, .altFirst hoccurs, hspans⟩
      · obtain ⟨p', hp', text, groups, hoccurs, hspans⟩ := ihsecond h
        cases List.mem_singleton.mp hp'
        exact ⟨p, hp, text, groups, .altSecond hoccurs, hspans⟩
  | many body ih =>
      have hstep (p : Place) : ∀ q ∈ body.flow limit [p], Arrives body p q := by
        intro q hq
        obtain ⟨p', hp', harrives⟩ := ih hq
        cases List.mem_singleton.mp hp'
        exact harrives
      exact mem_inOrder_foldl h fun reached p => arrives_of_mem_sweep hstep limit reached
  | group number body ih =>
      obtain ⟨inner, hinner, rfl⟩ := List.mem_map.mp h
      obtain ⟨entered, hentered, text, groups, hoccurs, hspans⟩ := ih hinner
      obtain ⟨p, hp, rfl⟩ := List.mem_map.mp hentered
      rw [← Place.rest_leave number] at hoccurs
      exact ⟨p, hp, text, _, .group hoccurs, hspans.leave number⟩

/-- Every place to which `flow` comes is behind a text that the pattern spells. -/
theorem reaches_of_mem_flow {pattern : Pattern} {limit : Nat} {places : List Place} {q : Place}
    (h : q ∈ pattern.flow limit places) : ∃ p ∈ places, Reaches pattern p q := by
  obtain ⟨p, hp, harrives⟩ := arrives_of_mem_flow h
  exact ⟨p, hp, harrives.reaches⟩

/-! ## Matches and cuts -/

/-- The match covers a text that the pattern spells, and has it as group zero. -/
def Match.Fits (m : Match) (pattern : Pattern) : Prop :=
  ∃ groups, Spells pattern m.text groups ∧ m.groups = (0, m.text) :: groups

/-- The places of a block, and the one behind it, stand behind text that was passed over. -/
theorem spans_of_block {size : Nat} {p : Place} {taken : List Place} :
    (∀ q ∈ (Place.block size p taken).1, q ∈ taken ∨ ∃ text, p.Spans text [] q) ∧
      ∀ q, (Place.block size p taken).2 = some q →
        ∃ text, text.length = size ∧ p.Spans text [] q := by
  induction size generalizing p taken with
  | zero =>
      refine ⟨fun q hq => Or.inl (List.mem_reverse.mp hq), fun q hq => ?_⟩
      cases hq
      exact ⟨[], rfl, .refl _⟩
  | succ size ih =>
      have hhere {q : Place} (h : q ∈ p :: taken) :
          q ∈ taken ∨ ∃ text, p.Spans text [] q := by
        rcases List.mem_cons.mp h with rfl | h
        · exact Or.inr ⟨[], .refl _⟩
        · exact Or.inl h
      unfold Place.block
      split
      · refine ⟨fun q hq => hhere (List.mem_reverse.mp hq), fun q hq => ?_⟩
        cases hq
      · rename_i c next hnext
        have hspans : p.Spans [c] [] next := by
          obtain ⟨pos, previous, rest, begun, groups⟩ := p
          cases rest with
          | nil => cases hnext
          | cons c rest =>
              cases hnext
              exact ⟨rfl, rfl, rfl, rfl, rfl⟩
        refine ⟨fun q hq => ?_, fun q hq => ?_⟩
        · rcases ih.1 q hq with h | ⟨text, hspans'⟩
          · exact hhere h
          · exact Or.inr ⟨_, hspans.trans hspans'⟩
        · obtain ⟨text, hlength, hspans'⟩ := ih.2 q hq
          exact ⟨c :: text, congrArg (· + 1) hlength, hspans.trans hspans'⟩

theorem occurs_of_endFrom? {pattern : Pattern} {limit size passed passed' : Nat} {p q : Place}
    (hpos : p.pos = 0) (hgroups : p.captures = [])
    (h : pattern.endFrom? limit size passed p = some (passed', q)) :
    ∃ before text groups, p.rest = before ++ (text ++ q.rest) ∧
      Occurs pattern (before.getLast?.or p.previous) text q.rest groups ∧
      q.captures = (0, text) :: groups ∧
      passed' + (q.pos - text.length) = passed + before.length := by
  induction limit generalizing size passed p with
  | zero => cases h
  | succ limit ih =>
      unfold endFrom? at h
      dsimp only at h
      split at h
      · rename_i hflow
        cases h
        obtain ⟨start, hstart, text, groups, hoccurs, hspans⟩ :=
          arrives_of_mem_flow (hflow ▸ List.mem_cons_self)
        obtain ⟨before, hbefore⟩ : ∃ text, p.Spans text [] start := by
          rcases spans_of_block.1 start hstart with hnone | hspans
          · cases hnone
          · exact hspans
        rw [hbefore.previous] at hoccurs
        cases hoccurs with
        | group hoccurs =>
            refine ⟨before, text, _, ?_, hoccurs, ?_, ?_⟩
            · rw [hbefore.rest, hspans.rest]
            · rw [hspans.captures, hbefore.captures, hgroups, List.append_nil, List.append_nil]
            · rw [hspans.pos, hbefore.pos, hpos]
              omega
      · obtain ⟨next, hnext, h⟩ := Option.bind_eq_some_iff.mp h
        obtain ⟨skipped, hlength, hskipped⟩ := spans_of_block.2 next hnext
        have hcaptures : ({ next with pos := 0 } : Place).captures = [] :=
          hskipped.captures.trans hgroups
        obtain ⟨before, text, groups, hrest, hoccurs, hq, hpassed⟩ := ih rfl hcaptures h
        refine ⟨skipped ++ before, text, groups, ?_, ?_, hq, ?_⟩
        · rw [hskipped.rest, List.append_assoc]
          exact congrArg _ hrest
        · rwa [List.getLast?_append, Option.or_assoc, ← hskipped.previous]
        · rw [hpassed, List.length_append]
          omega

/-- What is found is an occurrence, and the text falls into what stands in front of it, the match
and what stands behind it. -/
theorem occurs_of_findFrom? {pattern : Pattern} {limit : Nat} {p : Place} {found : Found}
    (hpos : p.pos = 0) (hgroups : p.captures = [])
    (h : pattern.findFrom? limit p = some found) :
    p.rest = found.before ++ (found.hit.text ++ found.after.rest) ∧
      (∃ groups, Occurs pattern (found.before.getLast?.or p.previous) found.hit.text
        found.after.rest groups ∧ found.hit.groups = (0, found.hit.text) :: groups) ∧
      found.after.pos = 0 ∧ found.after.captures = [] := by
  obtain ⟨⟨passed, q⟩, hend, rfl⟩ := Option.map_eq_some_iff.mp h
  obtain ⟨before, text, groups, hrest, hoccurs, hcaptures, hpassed⟩ :=
    occurs_of_endFrom? hpos hgroups hend
  rw [Nat.zero_add] at hpassed
  have htext : ((q.captures.lookup 0).getD []) = text := by
    rw [hcaptures]
    rfl
  change p.rest = p.rest.take (passed + (q.pos - ((q.captures.lookup 0).getD []).length)) ++
      (((q.captures.lookup 0).getD []) ++ q.rest) ∧
    (∃ groups, Occurs pattern ((p.rest.take (passed +
      (q.pos - ((q.captures.lookup 0).getD []).length))).getLast?.or p.previous)
      ((q.captures.lookup 0).getD []) q.rest groups ∧
        q.captures = (0, (q.captures.lookup 0).getD []) :: groups) ∧ _
  rw [htext, hpassed, hrest, List.take_left]
  exact ⟨rfl, ⟨groups, hoccurs, hcaptures⟩, rfl, rfl⟩

/-- So it fits. -/
theorem fits_of_findFrom? {pattern : Pattern} {limit : Nat} {p : Place} {found : Found}
    (hpos : p.pos = 0) (hgroups : p.captures = [])
    (h : pattern.findFrom? limit p = some found) :
    p.rest = found.before ++ (found.hit.text ++ found.after.rest) ∧ found.hit.Fits pattern ∧
      found.after.pos = 0 ∧ found.after.captures = [] := by
  obtain ⟨hrest, ⟨groups, hoccurs, hcaptured⟩, hafter⟩ := occurs_of_findFrom? hpos hgroups h
  exact ⟨hrest, ⟨groups, hoccurs.spells, hcaptured⟩, hafter⟩

/-- The first match in a text fits and covers a piece of the text. -/
theorem fits_of_find? {pattern : Pattern} {text : List Char} {m : Match}
    (h : pattern.find? text = some m) : m.Fits pattern ∧ m.text <:+: text := by
  obtain ⟨found, hfound, rfl⟩ := Option.map_eq_some_iff.mp h
  obtain ⟨hrest, hfits, -⟩ := fits_of_findFrom? rfl rfl hfound
  have htext : text = found.before ++ (found.hit.text ++ found.after.rest) := hrest
  exact ⟨hfits, found.before, found.after.rest, by rw [htext, List.append_assoc]⟩

/-- The pieces and the tail are the text, and it is cut at fitting matches. -/
structure Cuts.Cover (cuts : Cuts) (pattern : Pattern) (text : List Char) : Prop where
  whole : cuts.found.flatMap (fun cut => cut.1 ++ cut.2.text) ++ cuts.tail = text
  fits : ∀ cut ∈ cuts.found, cut.2.Fits pattern

namespace Cuts.Cover

variable {pattern : Pattern}

theorem nothing (text : List Char) : Cover ⟨[], text⟩ pattern text :=
  ⟨rfl, List.forall_mem_nil _⟩

/-- A match in front of what is cut behind it. -/
theorem cons {cuts : Cuts} {text : List Char} {m : Match} (h : cuts.Cover pattern text)
    (hm : m.Fits pattern) (before : List Char) :
    Cover ⟨(before, m) :: cuts.found, cuts.tail⟩ pattern (before ++ (m.text ++ text)) where
  whole := by simp only [List.flatMap_cons, List.append_assoc, h.whole]
  fits := List.forall_mem_cons.mpr ⟨hm, h.fits⟩

end Cuts.Cover

/-- Nothing is lost when a text is cut behind a place. -/
theorem cutFrom_covers {pattern : Pattern} {left : Nat} {p : Place} {carried : List Char}
    {isBehind : Bool} (hpos : p.pos = 0) (hgroups : p.captures = []) :
    (pattern.cutFrom left p carried isBehind).Cover pattern (carried ++ p.rest) := by
  induction left generalizing p carried isBehind with
  | zero => exact .nothing _
  | succ left ih =>
      unfold cutFrom
      cases hfind : pattern.findFrom? (left + 1) p with
      | none => exact .nothing _
      | some found =>
          obtain ⟨skipped, m, q⟩ := found
          obtain ⟨hrest, hfits, hqpos, hqgroups⟩ := fits_of_findFrom? hpos hgroups hfind
          dsimp only at hrest ⊢
          rw [hrest, ← List.append_assoc]
          split
          · rename_i hempty
            have hnone : m.text = [] := List.isEmpty_iff.mp hempty
            cases hnext : q.next? with
            | none =>
                rw [rest_of_next? hnext]
                dsimp only
                split
                · exact (Cuts.Cover.nothing []).cons hfits _
                · exact .nothing _
            | some next =>
                obtain ⟨c, r⟩ := next
                have hspans := spans_of_next? hnext
                have hr : r.captures = [] := hspans.captures.trans hqgroups
                rw [hspans.rest]
                dsimp only
                split
                · exact (ih (p := { r with pos := 0 }) rfl hr).cons hfits _
                · have hbehind : (pattern.cutFrom left { r with pos := 0 } (carried ++ skipped ++ [c])
                      false).Cover pattern (carried ++ skipped ++ [c] ++ r.rest) :=
                    ih rfl hr
                  rw [hnone, List.nil_append, ← List.append_assoc]
                  exact hbehind
          · exact (ih hqpos hqgroups).cons hfits _

/-- The pieces of a text that is cut are the text. -/
theorem flatMap_cuts (pattern : Pattern) (text : List Char) :
    (pattern.cuts text).found.flatMap (fun cut => cut.1 ++ cut.2.text) ++
      (pattern.cuts text).tail = text :=
  (cutFrom_covers (p := Place.start text) rfl rfl).whole

theorem fits_of_mem_cuts {pattern : Pattern} {text : List Char} {cut : List Char × Match}
    (h : cut ∈ (pattern.cuts text).found) : cut.2.Fits pattern :=
  (cutFrom_covers (p := Place.start text) rfl rfl).fits cut h

end StepTrace.Pattern
