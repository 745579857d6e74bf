import StepTrace.Proofs.MatchedText

/-!
# The leftmost match

A search finds a match that begins where the first one can (`findFrom?_leftmost`): if the pattern
leads on from a place and does not occur in front of it, the match begins at this place.

Two facts about `flow` are behind this. What it finds from some places comes in front of what it
finds from the places behind them (`flow_isPrefix`). And a run of characters misses nothing: where
it leads from a place, the search comes, be it from this place or from another one
(`exists_spot_spread`). Since each position is kept only once, this is a statement about spots, that
is, about the character before a place and the text behind it, and it needs all places to be places
of one text (`Place.On`).
-/

namespace StepTrace.Pattern

/-! ## The order of preference -/

/-- A step that puts places in front of those reached so far. -/
theorem places_isSuffix_foldl {α : Type} {step : Reached → α → Reached}
    (hstep : ∀ reached a, reached.places <:+ (step reached a).places) (reached : Reached)
    (list : List α) : reached.places <:+ (list.foldl step reached).places := by
  induction list generalizing reached with
  | nil => exact List.suffix_rfl
  | cons a list ih => exact (hstep reached a).trans (ih _)

theorem inOrder_foldl_isPrefix {α : Type} {step : Reached → α → Reached}
    (hstep : ∀ reached a, reached.places <:+ (step reached a).places) {list more : List α}
    (h : list <+: more) :
    (list.foldl step .nothing).inOrder <+: (more.foldl step .nothing).inOrder := by
  obtain ⟨behind, rfl⟩ := h
  rw [List.foldl_append]
  exact List.reverse_prefix.mpr (places_isSuffix_foldl hstep _ behind)

theorem places_isSuffix_add (reached : Reached) (p : Place) :
    reached.places <:+ (reached.add p).places := by
  unfold Reached.add
  split
  · exact List.suffix_rfl
  · exact List.suffix_cons _ _

theorem places_isSuffix_sweep (step : Place → List Place) (limit : Nat) (reached : Reached)
    (p : Place) : reached.places <:+ (sweep step limit reached p).places := by
  induction limit generalizing reached p with
  | zero => exact places_isSuffix_add reached p
  | succ limit ih =>
      unfold sweep
      dsimp only
      split
      · exact List.suffix_rfl
      · have hdeeper := places_isSuffix_foldl ih
          { reached with seen := reached.seen.insert p.pos } (step p)
        exact hdeeper.trans (List.suffix_cons _ _)

theorem spread_isPrefix {isReluctant : Bool} {test : Char → Bool} {places more : List Place}
    (h : places <+: more) : spread isReluctant test places <+: spread isReluctant test more := by
  refine inOrder_foldl_isPrefix (fun reached p => ?_) h
  exact List.suffix_append _ _

/-- What is found from the first places comes first. -/
theorem flow_isPrefix (pattern : Pattern) (limit : Nat) {places more : List Place}
    (h : places <+: more) : pattern.flow limit places <+: pattern.flow limit more := by
  induction pattern generalizing places more with
  | empty => exact h
  | char test => exact h.filterMap _
  | run least test => exact spread_isPrefix (h.filterMap _)
  | reluctantRun least test => exact spread_isPrefix (h.filterMap _)
  | anchor condition => exact h.filter _
  | seq first second ihfirst ihsecond => exact ihsecond (ihfirst h)
  | alt first second =>
      refine inOrder_foldl_isPrefix places_isSuffix_add ?_
      obtain ⟨behind, rfl⟩ := h
      rw [List.flatMap_append]
      exact List.prefix_append _ _
  | many body => exact inOrder_foldl_isPrefix (places_isSuffix_sweep _ limit) h
  | group number body ih => exact (ih (h.map _)).map _

/-! ## Places of one text -/

/-- The place is one of the text, in front of which the character stands. -/
structure Place.On (before : Option Char) (text : List Char) (p : Place) : Prop where
  pos : p.pos ≤ text.length
  rest : p.rest = text.drop p.pos
  previous : p.previous = (text.take p.pos).getLast?.or before

section

variable {before : Option Char} {text : List Char} {p q : Place}

theorem Place.On.start (hpos : p.pos = 0) : p.On p.previous p.rest where
  pos := by omega
  rest := by rw [hpos, List.drop_zero]
  previous := by rw [hpos, List.take_zero]; rfl

/-- A place behind a place of the text is one of the text. -/
theorem Place.On.of_spans {passed : List Char} {groups : List (Nat × List Char)}
    (h : p.On before text) (hspans : p.Spans passed groups q) : q.On before text := by
  have hdrop : text.drop p.pos = passed ++ q.rest := h.rest.symm.trans hspans.rest
  have htake : text.take q.pos = text.take p.pos ++ passed := by
    rw [hspans.pos, List.take_add, hdrop, List.take_left]
  refine ⟨?_, ?_, ?_⟩
  · have hlength := congrArg List.length hdrop
    rw [List.length_drop, List.length_append] at hlength
    have hpos := h.pos
    rw [hspans.pos]
    omega
  · rw [hspans.pos, ← List.drop_drop, hdrop, List.drop_left]
  · rw [hspans.previous, h.previous, htake, List.getLast?_append, Option.or_assoc]

theorem on_of_mem_flow {pattern : Pattern} {limit : Nat} {places : List Place}
    (hplaces : ∀ p ∈ places, p.On before text) (hq : q ∈ pattern.flow limit places) :
    q.On before text := by
  obtain ⟨p, hp, passed, groups, -, hspans⟩ := reaches_of_mem_flow hq
  exact (hplaces p hp).of_spans hspans

/-! ## Runs of characters -/

/-- What a walk over characters of a class adds to the places found before it: those at the next
`count` positions. It ends at the first character that is not of the class, or in front of a
position where another walk has been. -/
structure Walk (test : Char → Bool) (seen : Positions) (pos : Nat) (rest : List Char)
    (nearer found : List Place) (count : Nat) : Prop where
  length : found.length = nearer.length + count
  keeps : nearer ⊆ found
  reaches : ∀ i, i < count → ∃ q ∈ found, q.pos = pos + i
  within : ∀ q ∈ found, q ∈ nearer ∨ pos ≤ q.pos ∧ q.pos < pos + count
  begins : count = 0 → seen.contains pos = true
  ends : ∀ i c, i + 1 = count → rest[i]? = some c → test c = true →
    seen.contains (pos + count) = true

namespace Walk

variable {test : Char → Bool} {seen : Positions} {pos count : Nat} {rest : List Char}
  {nearer found : List Place}

theorem none (hseen : seen.contains pos = true) : Walk test seen pos rest nearer nearer 0 where
  length := rfl
  keeps := List.Subset.refl _
  reaches := by
    intro i hi
    omega
  within q hq := Or.inl hq
  begins _ := hseen
  ends := by
    intro i c hi
    omega

/-- The place in front of a character that is not of the class, or at the end. -/
theorem one (hp : p.pos = pos) (hends : ∀ c, rest.head? = some c → test c = false) :
    Walk test seen pos rest nearer (p :: nearer) 1 where
  length := rfl
  keeps := List.subset_cons_self _ _
  reaches := by
    intro i hi
    exact ⟨p, List.mem_cons_self, by omega⟩
  within := by
    intro q hq
    rcases List.mem_cons.mp hq with rfl | hq
    · exact Or.inr ⟨by omega, by omega⟩
    · exact Or.inl hq
  begins := by
    intro hzero
    omega
  ends := by
    intro i c hi hc htest
    obtain rfl : i = 0 := by omega
    rw [← List.head?_eq_getElem?] at hc
    rw [hends c hc] at htest
    cases htest

/-- The place in front of a character of the class, and the walk behind it. -/
theorem more {c : Char} (hp : p.pos = pos)
    (h : Walk test seen (pos + 1) rest (p :: nearer) found count) :
    Walk test seen pos (c :: rest) nearer found (count + 1) where
  length := by
    rw [h.length, List.length_cons]
    omega
  keeps := fun q hq => h.keeps (List.mem_cons_of_mem _ hq)
  reaches := by
    intro i hi
    cases i with
    | zero => exact ⟨p, h.keeps List.mem_cons_self, hp⟩
    | succ i =>
        obtain ⟨q, hq, hpos⟩ := h.reaches i (by omega)
        exact ⟨q, hq, by omega⟩
  within := by
    intro q hq
    rcases h.within q hq with hq | hpos
    · rcases List.mem_cons.mp hq with rfl | hq
      · exact Or.inr ⟨by omega, by omega⟩
      · exact Or.inl hq
    · exact Or.inr ⟨by omega, by omega⟩
  begins := by
    intro hzero
    omega
  ends := by
    intro i d hi hd htest
    cases i with
    | zero =>
        have hzero : count = 0 := by omega
        subst hzero
        exact h.begins rfl
    | succ i =>
        have hend := h.ends i d (by omega) hd htest
        rwa [show pos + (count + 1) = pos + 1 + count by omega]

end Walk

theorem exists_walk (test : Char → Bool) (seen : Positions) (start : Place) (pos : Nat)
    (previous : Option Char) (rest : List Char) (nearer : List Place) :
    ∃ count, Walk test seen pos rest nearer (stretch test seen start pos previous rest nearer)
      count := by
  induction rest generalizing pos previous nearer with
  | nil =>
      unfold stretch
      split
      · rename_i hseen
        exact ⟨0, .none hseen⟩
      · exact ⟨1, .one rfl (by simp)⟩
  | cons c rest ih =>
      unfold stretch
      dsimp only
      split
      · rename_i hseen
        exact ⟨0, .none hseen⟩
      · split
        · obtain ⟨count, hwalk⟩ := ih (pos + 1) (some c)
            ({ start with pos, previous, rest := c :: rest } :: nearer)
          exact ⟨count + 1, hwalk.more rfl⟩
        · rename_i hc
          refine ⟨1, .one rfl ?_⟩
          intro d hd
          cases hd
          exact Bool.eq_false_iff.mpr hc

/-- Every position that has been reached is that of a place, and whoever goes on from there over a
character of the class comes to a position that has been reached. -/
structure Reached.Closed (reached : Reached) (test : Char → Bool) (before : Option Char)
    (text : List Char) : Prop where
  on : ∀ q ∈ reached.places, q.On before text
  seen : ∀ i, reached.seen.contains i = true → ∃ q ∈ reached.places, q.pos = i
  goesOn : ∀ q ∈ reached.places, ∀ c rest, q.rest = c :: rest → test c = true →
    reached.seen.contains (q.pos + 1) = true

/-- One round of `spread`. -/
def Reached.walkFrom (isReluctant : Bool) (test : Char → Bool) (reached : Reached) (p : Place) :
    Reached :=
  let found := stretch test reached.seen p p.pos p.previous p.rest []
  { places := (if isReluctant then found else found.reverse) ++ reached.places
    seen := reached.seen.insertRange p.pos found.length }

theorem closed_walkFrom (isReluctant : Bool) {test : Char → Bool} {reached : Reached}
    (h : reached.Closed test before text) (hp : p.On before text) :
    (reached.walkFrom isReluctant test p).Closed test before text ∧
      (reached.walkFrom isReluctant test p).seen.contains p.pos = true ∧
      ∀ i, reached.seen.contains i = true →
        (reached.walkFrom isReluctant test p).seen.contains i = true := by
  obtain ⟨count, hwalk⟩ := exists_walk test reached.seen p p.pos p.previous p.rest []
  have hcount := hwalk.length
  rw [List.length_nil, Nat.zero_add] at hcount
  have hplaces {q : Place} : q ∈ (reached.walkFrom isReluctant test p).places ↔
      q ∈ stretch test reached.seen p p.pos p.previous p.rest [] ∨ q ∈ reached.places := by
    cases isReluctant <;> simp [Reached.walkFrom]
  have hseen (i : Nat) : (reached.walkFrom isReluctant test p).seen.contains i = true ↔
      reached.seen.contains i = true ∨ p.pos ≤ i ∧ i < p.pos + count := by
    simp [Reached.walkFrom, Positions.contains_insertRange, hcount]
  have hon : ∀ q ∈ stretch test reached.seen p p.pos p.previous p.rest [], q.On before text := by
    intro q hq
    rcases spans_of_mem_stretch hq with hnone | ⟨passed, -, hspans⟩
    · cases hnone
    · exact hp.of_spans hspans
  refine ⟨⟨?_, ?_, ?_⟩, ?_, fun i hi => (hseen i).mpr (Or.inl hi)⟩
  · intro q hq
    rcases hplaces.mp hq with hq | hq
    · exact hon q hq
    · exact h.on q hq
  · intro i hi
    rcases (hseen i).mp hi with hi | ⟨hle, hlt⟩
    · obtain ⟨q, hq, hpos⟩ := h.seen i hi
      exact ⟨q, hplaces.mpr (Or.inr hq), hpos⟩
    · obtain ⟨q, hq, hpos⟩ := hwalk.reaches (i - p.pos) (by omega)
      exact ⟨q, hplaces.mpr (Or.inl hq), by omega⟩
  · intro q hq c rest hrest htest
    rw [hseen]
    rcases hplaces.mp hq with hq | hq
    · have hrange := (hwalk.within q hq).resolve_left List.not_mem_nil
      by_cases hlast : q.pos + 1 < p.pos + count
      · exact Or.inr ⟨by omega, hlast⟩
      · -- the walk ended behind this place, so another one has been there
        have hnext : p.rest[q.pos - p.pos]? = some c := by
          rw [(hon q hq).rest] at hrest
          rw [hp.rest, List.getElem?_drop, show p.pos + (q.pos - p.pos) = q.pos by omega,
            ← List.head?_drop, hrest]
          rfl
        have hend := hwalk.ends (q.pos - p.pos) c (by omega) hnext htest
        rw [show p.pos + count = q.pos + 1 by omega] at hend
        exact Or.inl hend
    · exact Or.inl (h.goesOn q hq c rest hrest htest)
  · rw [hseen]
    by_cases hzero : count = 0
    · exact Or.inl (hwalk.begins hzero)
    · exact Or.inr ⟨by omega, by omega⟩

theorem closed_foldl (isReluctant : Bool) {test : Char → Bool} {reached : Reached}
    {places : List Place} (h : reached.Closed test before text)
    (hplaces : ∀ p ∈ places, p.On before text) :
    (places.foldl (Reached.walkFrom isReluctant test) reached).Closed test before text ∧
      (∀ p ∈ places,
        (places.foldl (Reached.walkFrom isReluctant test) reached).seen.contains p.pos = true) ∧
      ∀ i, reached.seen.contains i = true →
        (places.foldl (Reached.walkFrom isReluctant test) reached).seen.contains i = true := by
  induction places generalizing reached with
  | nil => exact ⟨h, List.forall_mem_nil _, fun _ hi => hi⟩
  | cons p places ih =>
      obtain ⟨hp, hrest⟩ := List.forall_mem_cons.mp hplaces
      obtain ⟨hclosed, hhere, hkeeps⟩ := closed_walkFrom isReluctant h hp
      obtain ⟨hresult, hall, hmore⟩ := ih hclosed hrest
      refine ⟨hresult, List.forall_mem_cons.mpr ⟨hmore _ hhere, hall⟩, ?_⟩
      intro i hi
      exact hmore i (hkeeps i hi)

theorem Reached.Closed.contains_add {test : Char → Bool} {reached : Reached}
    (h : reached.Closed test before text) {passed behind : List Char} {i : Nat}
    (hi : reached.seen.contains i = true) (hdrop : text.drop i = passed ++ behind)
    (hpassed : ∀ c ∈ passed, test c = true) :
    reached.seen.contains (i + passed.length) = true := by
  induction passed generalizing i with
  | nil => exact hi
  | cons c passed ih =>
      obtain ⟨hc, hpassed⟩ := List.forall_mem_cons.mp hpassed
      obtain ⟨q, hq, rfl⟩ := h.seen i hi
      have hnext := h.goesOn q hq c (passed ++ behind) ((h.on q hq).rest.trans hdrop) hc
      have hdrop' : text.drop (q.pos + 1) = passed ++ behind := by
        rw [← List.drop_drop, hdrop]
        rfl
      have hend := ih hnext hdrop' hpassed
      rwa [List.length_cons, Nat.add_comm passed.length 1, ← Nat.add_assoc]

/-- Walks miss no place behind characters of the class. -/
theorem exists_spread (isReluctant : Bool) {test : Char → Bool} {places : List Place}
    (hplaces : ∀ p ∈ places, p.On before text) (hp : p ∈ places) {passed behind : List Char}
    (hrest : p.rest = passed ++ behind) (hpassed : ∀ c ∈ passed, test c = true) :
    ∃ q ∈ spread isReluctant test places, q.pos = p.pos + passed.length := by
  have hnothing : Reached.nothing.Closed test before text := by
    refine ⟨List.forall_mem_nil _, fun i hi => ?_, List.forall_mem_nil _⟩
    cases (Positions.contains_empty i).symm.trans hi
  obtain ⟨hclosed, hall, -⟩ := closed_foldl isReluctant hnothing hplaces
  have hdrop := (hplaces p hp).rest.symm.trans hrest
  obtain ⟨q, hq, hpos⟩ := hclosed.seen _ (hclosed.contains_add (hall p hp) hdrop hpassed)
  exact ⟨q, List.mem_reverse.mpr hq, hpos⟩

theorem exists_steps? {test : Char → Bool} {passed behind : List Char}
    (hrest : p.rest = passed ++ behind) (hpassed : ∀ c ∈ passed, test c = true) :
    ∃ q, Place.steps? test passed.length p = some q ∧ p.Spans passed [] q := by
  induction passed generalizing p with
  | nil => exact ⟨p, rfl, .refl p⟩
  | cons c passed ih =>
      obtain ⟨hc, hpassed⟩ := List.forall_mem_cons.mp hpassed
      let next : Place := { p with pos := p.pos + 1, previous := some c, rest := passed ++ behind }
      have hstep : p.step? test = some next := by
        simp [Place.step?, Place.next?, hrest, hc, next]
      have hspans : p.Spans [c] [] next := ⟨hrest, rfl, rfl, rfl, rfl⟩
      obtain ⟨q, hq, hspans'⟩ := ih (p := next) rfl hpassed
      refine ⟨q, ?_, hspans.trans hspans'⟩
      rw [List.length_cons, Place.steps?, hstep]
      exact hq

end

/-! ## Where a pattern leads -/

/-- Where a place is: the character in front of it and the text behind it. -/
structure Spot where
  previous : Option Char
  rest : List Char

/-- Where the place is. -/
def Place.spot (p : Place) : Spot :=
  ⟨p.previous, p.rest⟩

/-- The spot behind a text that is passed over. -/
def Spot.behind (s : Spot) (passed rest : List Char) : Spot :=
  ⟨passed.getLast?.or s.previous, rest⟩

theorem Place.Spans.spot {p q : Place} {passed : List Char} {groups : List (Nat × List Char)}
    (h : p.Spans passed groups q) : q.spot = p.spot.behind passed q.rest := by
  rw [Place.spot, Place.spot, Spot.behind, h.previous]

/-- Places of one text at the same position are at the same spot. -/
theorem Place.On.spot_eq {before : Option Char} {text : List Char} {p q : Place}
    (hp : p.On before text) (hq : q.On before text) (hpos : p.pos = q.pos) : p.spot = q.spot := by
  rw [Place.spot, Place.spot, hp.rest, hq.rest, hp.previous, hq.previous, hpos]

/-- Behind enough characters of the class. -/
theorem exists_spot_spread (isReluctant : Bool) {least : Nat} {test : Char → Bool}
    {before previous : Option Char} {text passed rest : List Char} {places : List Place}
    (hleast : least ≤ passed.length) (hpassed : ∀ c ∈ passed, test c = true)
    (hplaces : ∀ p ∈ places, p.On before text)
    (hspot : ∃ p ∈ places, p.spot = ⟨previous, passed ++ rest⟩) :
    ∃ q ∈ spread isReluctant test (places.filterMap (Place.steps? test least)),
      q.spot = ⟨passed.getLast?.or previous, rest⟩ := by
  obtain ⟨p, hp, hspot⟩ := hspot
  have hrest : p.rest = passed ++ rest := congrArg Spot.rest hspot
  have hprevious : p.previous = previous := congrArg Spot.previous hspot
  -- first the characters that are asked for, then the others
  obtain ⟨first, others, rfl, hfirst⟩ : ∃ first others, passed = first ++ others ∧
      first.length = least :=
    ⟨passed.take least, passed.drop least, (List.take_append_drop _ _).symm,
      List.length_take_of_le hleast⟩
  obtain ⟨hfirstAll, hothersAll⟩ := List.forall_mem_append.mp hpassed
  rw [List.append_assoc] at hrest
  obtain ⟨middle, hsteps, hspans⟩ := exists_steps? hrest hfirstAll
  rw [hfirst] at hsteps
  have hmiddles : ∀ q ∈ places.filterMap (Place.steps? test least), q.On before text := by
    intro q hq
    obtain ⟨p', hp', hsteps'⟩ := List.mem_filterMap.mp hq
    obtain ⟨passed', -, -, hspans'⟩ := spans_of_steps? hsteps'
    exact (hplaces p' hp').of_spans hspans'
  have hmiddle : middle ∈ places.filterMap (Place.steps? test least) :=
    List.mem_filterMap.mpr ⟨p, hp, hsteps⟩
  have hmiddleRest : middle.rest = others ++ rest :=
    List.append_cancel_left (hspans.rest.symm.trans hrest)
  obtain ⟨q, hq, hpos⟩ := exists_spread isReluctant hmiddles hmiddle hmiddleRest hothersAll
  obtain ⟨target, -, hspans'⟩ := exists_steps? hmiddleRest hothersAll
  have hqOn : q.On before text := by
    obtain ⟨p', hp', passed', -, hspans'⟩ := spans_of_mem_spread hq
    exact (hmiddles p' hp').of_spans hspans'
  have htargetOn := (hmiddles middle hmiddle).of_spans hspans'
  refine ⟨q, hq, (hqOn.spot_eq htargetOn (hpos.trans hspans'.pos.symm)).trans ?_⟩
  have htarget : target.rest = rest :=
    List.append_cancel_left (hspans'.rest.symm.trans hmiddleRest)
  rw [(hspans.trans hspans').spot, hspot, htarget]
  rfl

theorem Place.spot_leave (number : Nat) (p : Place) : (p.leave number).spot = p.spot := by
  unfold Place.leave
  split <;> rfl

/-! ## The search -/

/-- The places of a block that has room for more than the text passed over are those in front of
every part of it, the place behind it and others. A smaller block ends within that text. -/
theorem block_split (size : Nat) {p : Place} (taken : List Place) {front back : List Char}
    (hrest : p.rest = front ++ back) :
    ∃ starts, (∀ s ∈ starts, ∃ passed left, front = passed ++ left ∧ left ≠ [] ∧
        p.Spans passed [] s) ∧
      ((∃ q others, (Place.block size p taken).1 = taken.reverse ++ (starts ++ q :: others) ∧
          p.Spans front [] q) ∨
        ∃ next passed left, Place.block size p taken = (taken.reverse ++ starts, some next) ∧
          front = passed ++ left ∧ passed.length = size ∧ p.Spans passed [] next) := by
  induction size generalizing p taken front back with
  | zero =>
      refine ⟨[], List.forall_mem_nil _, Or.inr ⟨p, [], front, ?_, rfl, rfl, .refl p⟩⟩
      rw [List.append_nil]
      rfl
  | succ size ih =>
      unfold Place.block
      split
      · rename_i hend
        obtain ⟨rfl, -⟩ := List.append_eq_nil_iff.mp (hrest.symm.trans (rest_of_next? hend))
        refine ⟨[], List.forall_mem_nil _, Or.inl ⟨p, [], ?_, .refl p⟩⟩
        rw [List.reverse_cons]
        rfl
      · rename_i c next hnext
        have hspans : p.Spans [c] [] next := spans_of_next? hnext
        have hcons : c :: next.rest = front ++ back := hspans.rest.symm.trans hrest
        cases front with
        | nil =>
            have hnil : next.rest = [] ++ next.rest := rfl
            obtain ⟨starts, -, hblock⟩ := ih (p :: taken) hnil
            refine ⟨[], List.forall_mem_nil _, Or.inl ⟨p, ?_⟩⟩
            rcases hblock with ⟨q, others, hblock, -⟩ | ⟨behind, passed, left, hblock, -⟩
            · refine ⟨starts ++ q :: others, ?_, .refl p⟩
              rw [hblock, List.reverse_cons, List.append_assoc]
              rfl
            · refine ⟨starts, ?_, .refl p⟩
              rw [hblock, List.reverse_cons, List.append_assoc]
              rfl
        | cons d front =>
            obtain ⟨rfl, hnextRest⟩ := List.cons.inj hcons
            obtain ⟨starts, hstarts, hblock⟩ := ih (p :: taken) hnextRest
            refine ⟨p :: starts, List.forall_mem_cons.mpr ⟨?_, ?_⟩, ?_⟩
            · exact ⟨[], c :: front, rfl, List.cons_ne_nil _ _, .refl p⟩
            · intro s hs
              obtain ⟨passed, left, rfl, hleft, hspans'⟩ := hstarts s hs
              exact ⟨c :: passed, left, rfl, hleft, hspans.trans hspans'⟩
            · rcases hblock with ⟨q, others, hblock, hspans'⟩ |
                ⟨behind, passed, left, hblock, rfl, hsize, hspans'⟩
              · refine Or.inl ⟨q, others, ?_, hspans.trans hspans'⟩
                rw [hblock, List.reverse_cons, List.append_assoc]
                rfl
              · refine Or.inr ⟨behind, c :: passed, left, ?_, rfl, ?_, hspans.trans hspans'⟩
                · rw [hblock, List.reverse_cons, List.append_assoc]
                  rfl
                · rw [List.length_cons, hsize]

/-- In front of the text behind it no match can begin within `front`. -/
def NoneBegins (pattern : Pattern) (front back : List Char) : Prop :=
  ∀ passed left, front = passed ++ left → left ≠ [] →
    ∀ text groups rest, left ++ back = text ++ rest → ¬ Spells pattern text groups

/-- Within `front`, behind the character and in front of the text behind it, the pattern does not
occur. -/
def NoneOccurs (pattern : Pattern) (previous : Option Char) (front back : List Char) : Prop :=
  ∀ passed left, front = passed ++ left → left ≠ [] →
    ∀ text groups rest, left ++ back = text ++ rest →
      ¬ Occurs pattern (passed.getLast?.or previous) text rest groups

/-- A search from places of one text, one of which is at the spot, comes to some place, as long as
it may repeat as often as the text is long. -/
def Finds (pattern : Pattern) (s : Spot) : Prop :=
  ∀ (limit : Nat) (before : Option Char) (text : List Char) (places : List Place),
    text.length ≤ limit → (∀ p ∈ places, p.On before text) → (∃ p ∈ places, p.spot = s) →
      ∃ q, q ∈ pattern.flow limit places

variable {pattern : Pattern} {p : Place} {previous : Option Char} {front back : List Char}
  {s t : Spot}

theorem NoneBegins.noneOccurs (hnone : NoneBegins pattern front back) (previous : Option Char) :
    NoneOccurs pattern previous front back :=
  fun passed left hfront hleft text groups rest heq hoccurs =>
    hnone passed left hfront hleft text groups rest heq hoccurs.spells

/-- No match begins at a place in front. -/
theorem NoneOccurs.not_arrives (hnone : NoneOccurs pattern p.previous front back)
    (hrest : p.rest = front ++ back) {passed left : List Char} (hfront : front = passed ++ left)
    (hleft : left ≠ []) {s : Place} (hspans : p.Spans passed [] s) (q : Place) :
    ¬ Arrives (.group 0 pattern) s q := by
  rintro ⟨text, groups, hoccurs, hspans'⟩
  subst hfront
  have hs : s.rest = left ++ back := by
    rw [List.append_assoc] at hrest
    exact List.append_cancel_left (hspans.rest.symm.trans hrest)
  rw [hspans.previous] at hoccurs
  cases hoccurs with
  | group hoccurs =>
      exact hnone passed left rfl hleft text _ q.rest (hs.symm.trans hspans'.rest) hoccurs

theorem NoneOccurs.behind {passed : List Char}
    (hnone : NoneOccurs pattern previous (passed ++ front) back) :
    NoneOccurs pattern (passed.getLast?.or previous) front back := by
  intro gone left hfront hleft text groups rest heq
  have hnone := hnone (passed ++ gone) left (by rw [hfront, List.append_assoc]) hleft text groups
    rest heq
  rwa [List.getLast?_append, Option.or_assoc] at hnone

/-- What is reached first from the places of a block is reached from the first of them from which
the pattern leads on, if nothing is reached from those in front. -/
theorem exists_flow_cons {limit : Nat} {starts : List Place} {start : Place} (others : List Place)
    {before : Option Char} {text : List Char} (hlimit : text.length ≤ limit)
    (hon : ∀ s ∈ starts ++ [start], s.On before text)
    (hstarts : ∀ s ∈ starts, ∀ q, ¬ Arrives (.group 0 pattern) s q)
    (hfinds : Finds pattern start.spot) :
    ∃ q more, (group 0 pattern).flow limit (starts ++ start :: others) = q :: more ∧
      Arrives (.group 0 pattern) start q := by
  have hentered : ∀ q ∈ (starts ++ [start]).map Place.enter, q.On before text := by
    intro q hq
    obtain ⟨p, hp, rfl⟩ := List.mem_map.mp hq
    exact ⟨(hon p hp).pos, (hon p hp).rest, (hon p hp).previous⟩
  obtain ⟨inner, hinner⟩ := hfinds limit before text _ hlimit hentered
    ⟨start.enter, List.mem_map_of_mem (by simp), rfl⟩
  have hq : inner.leave 0 ∈ (group 0 pattern).flow limit (starts ++ [start]) :=
    List.mem_map_of_mem hinner
  have hprefix : (group 0 pattern).flow limit (starts ++ [start]) <+:
      (group 0 pattern).flow limit (starts ++ start :: others) :=
    flow_isPrefix _ _ ⟨others, by simp⟩
  obtain ⟨more, hmore⟩ := hprefix
  cases hfirst : (group 0 pattern).flow limit (starts ++ [start]) with
  | nil =>
      rw [hfirst] at hq
      cases hq
  | cons first behind =>
      rw [hfirst] at hmore
      have hfound : first ∈ (group 0 pattern).flow limit (starts ++ [start]) := by
        rw [hfirst]
        exact List.mem_cons_self
      obtain ⟨s, hs, harrives⟩ := arrives_of_mem_flow hfound
      refine ⟨first, behind ++ more, hmore.symm, ?_⟩
      rcases List.mem_append.mp hs with hs | hs
      · exact absurd harrives (hstarts s hs first)
      · exact List.mem_singleton.mp hs ▸ harrives

/-- The search comes to the first place from which the pattern leads on. -/
theorem exists_endFrom?_leftmost {limit size : Nat} (passed : Nat) (hpos : p.pos = 0)
    (hrest : p.rest = front ++ back) (hlimit : p.rest.length < limit) (hsize : 0 < size)
    (hnone : NoneOccurs pattern p.previous front back)
    (hfinds : Finds pattern ⟨front.getLast?.or p.previous, back⟩) :
    ∃ passed' s q, pattern.endFrom? limit size passed p = some (passed', q) ∧
      passed' + s.pos = passed + front.length ∧ s.rest = back ∧
      s.previous = front.getLast?.or p.previous ∧ s.captures = p.captures ∧
      Arrives (.group 0 pattern) s q := by
  induction limit generalizing size passed p front with
  | zero => cases hlimit
  | succ limit ih =>
      obtain ⟨starts, hstarts, hblock⟩ := block_split size [] hrest
      have hdead (s : Place) (hs : s ∈ starts) (q : Place) : ¬ Arrives (.group 0 pattern) s q := by
        obtain ⟨passed, left, hfront, hleft, hspans⟩ := hstarts s hs
        exact hnone.not_arrives hrest hfront hleft hspans q
      unfold endFrom?
      dsimp only
      rcases hblock with ⟨start, others, hblock, hspans⟩ |
        ⟨next, passedOver, left, hblock, rfl, hlength, hspans⟩
      · -- the place is in this block
        have hstartRest : start.rest = back :=
          List.append_cancel_left (hspans.rest.symm.trans hrest)
        have hon : ∀ q ∈ starts ++ [start], q.On p.previous p.rest := by
          intro q hq
          rcases List.mem_append.mp hq with hq | hq
          · obtain ⟨passed, left, -, -, hspans⟩ := hstarts q hq
            exact (Place.On.start hpos).of_spans hspans
          · cases List.mem_singleton.mp hq
            exact (Place.On.start hpos).of_spans hspans
        have hspot : start.spot = ⟨front.getLast?.or p.previous, back⟩ := by
          rw [hspans.spot, hstartRest]
          rfl
        obtain ⟨q, more, hflow, harrives⟩ :=
          exists_flow_cons others (Nat.le_of_lt hlimit) hon hdead (hspot ▸ hfinds)
        rw [hblock, List.reverse_nil, List.nil_append, hflow]
        refine ⟨passed, start, q, rfl, ?_, hstartRest, hspans.previous, hspans.captures, harrives⟩
        rw [hspans.pos, hpos, Nat.zero_add]
      · -- it is behind the block
        have hempty : (group 0 pattern).flow (limit + 1) (Place.block size p []).1 = [] := by
          refine List.eq_nil_iff_forall_not_mem.mpr fun q hq => ?_
          obtain ⟨s, hs, harrives⟩ := arrives_of_mem_flow hq
          rw [hblock] at hs
          exact hdead s hs q harrives
        rw [hempty, hblock]
        have hnextRest : next.rest = left ++ back := by
          rw [List.append_assoc] at hrest
          exact List.append_cancel_left (hspans.rest.symm.trans hrest)
        have hlast : left.getLast?.or next.previous =
            (passedOver ++ left).getLast?.or p.previous := by
          rw [hspans.previous, List.getLast?_append, Option.or_assoc]
        have hleft : next.rest.length < limit := by
          have hwhole := congrArg List.length hspans.rest
          rw [List.length_append] at hwhole
          omega
        have hgrown : 0 < min (2 * size) largestBlock := by
          unfold largestBlock
          omega
        have hnone' : NoneOccurs pattern next.previous left back := by
          rw [hspans.previous]
          exact hnone.behind
        have hfinds' : Finds pattern ⟨left.getLast?.or next.previous, back⟩ := by
          rw [hlast]
          exact hfinds
        obtain ⟨passed', s, q, hend, hcount, hsRest, hsPrevious, hsCaptures, harrives⟩ :=
          ih (p := { next with pos := 0 }) (passed + size) rfl hnextRest hleft hgrown hnone' hfinds'
        refine ⟨passed', s, q, hend, ?_, hsRest, hsPrevious.trans hlast,
          hsCaptures.trans hspans.captures, harrives⟩
        rw [List.length_append]
        omega

/-- The first match begins at the first place from which the pattern leads on, if the pattern does
not occur in front of it. -/
theorem findFrom?_leftmost {limit : Nat} (hpos : p.pos = 0) (hcaptures : p.captures = [])
    (hrest : p.rest = front ++ back) (hlimit : p.rest.length < limit)
    (hnone : NoneOccurs pattern p.previous front back)
    (hfinds : Finds pattern ⟨front.getLast?.or p.previous, back⟩) :
    ∃ text groups rest, Occurs pattern (front.getLast?.or p.previous) text rest groups ∧
      back = text ++ rest ∧
      pattern.findFrom? limit p = some ⟨front, ⟨text, (0, text) :: groups⟩,
        ⟨0, text.getLast?.or (front.getLast?.or p.previous), rest, [], []⟩⟩ := by
  obtain ⟨passed, s, q, hend, hcount, hsRest, hsPrevious, hsCaptures, harrives⟩ :=
    exists_endFrom?_leftmost 0 hpos hrest hlimit Nat.one_pos hnone hfinds
  obtain ⟨text, _, hoccurs, hspans⟩ := harrives
  cases hoccurs with
  | @group _ _ _ _ _ groups hoccurs =>
      have hcaptured : q.captures = (0, text) :: groups := by
        rw [hspans.captures, hsCaptures, hcaptures, List.append_nil]
      rw [hsPrevious] at hoccurs
      refine ⟨text, groups, q.rest, hoccurs, hsRest.symm.trans hspans.rest, ?_⟩
      unfold findFrom?
      rw [hend, Option.map_some]
      change some (Found.mk
        (p.rest.take (passed + (q.pos - ((q.captures.lookup 0).getD []).length)))
        ⟨(q.captures.lookup 0).getD [], q.captures⟩ ⟨0, q.previous, q.rest, [], []⟩) = _
      have htext : (q.captures.lookup 0).getD [] = text := by
        rw [hcaptured]
        rfl
      have hfront : p.rest.take (passed + (q.pos - text.length)) = front := by
        have hsize : passed + (q.pos - text.length) = front.length := by
          have hqpos := hspans.pos
          omega
        rw [hsize, hrest, List.take_left]
      rw [htext, hfront, hcaptured, hspans.previous, hsPrevious]

/-- Nothing is found if the pattern occurs nowhere. -/
theorem findFrom?_eq_none {limit : Nat} (hpos : p.pos = 0) (hcaptures : p.captures = [])
    (hnone : ∀ passed text groups rest, p.rest = passed ++ (text ++ rest) →
      ¬ Occurs pattern (passed.getLast?.or p.previous) text rest groups) :
    pattern.findFrom? limit p = none := by
  cases hfound : pattern.findFrom? limit p with
  | none => rfl
  | some found =>
      obtain ⟨hrest, ⟨groups, hoccurs, -⟩, -⟩ := occurs_of_findFrom? hpos hcaptures hfound
      exact absurd hoccurs (hnone _ _ _ _ hrest)

end StepTrace.Pattern
