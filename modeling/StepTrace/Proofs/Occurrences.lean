import StepTrace.Proofs.LeftmostMatch

/-!
# Every occurrence is found

A search comes to every place behind an occurrence of a pattern (`exists_mem_flow`), as long as it
may repeat as often as the text is long. So the first match of a text is its leftmost occurrence
(`findFrom?_occurs`), and a text in which the pattern occurs has a match. A pattern that occurs at
one place only, in one way, changes that place and keeps what is on either side (`replaceAll_once`).

The walk behind a repetition keeps the positions where it has been. It misses none: at any time, one
more round from a position where it has been leads to such a position too, except for positions in
front of the place from which it is walking on (`Swept.goesOn`, `ClosedFrom`).
-/

namespace StepTrace.Pattern

variable {pattern : Pattern} {before previous : Option Char}
  {passed text behind front back : List Char} {groups : List (Nat × List Char)} {limit : Nat}
  {places : List Place} {p q : Place}

/-! ## Places of one text -/

theorem Place.On.pos_eq (hp : p.On before text) {i : Nat} (hi : i ≤ text.length)
    (hrest : p.rest = text.drop i) : p.pos = i := by
  have hlength := congrArg List.length (hp.rest.symm.trans hrest)
  rw [List.length_drop, List.length_drop] at hlength
  have hpos := hp.pos
  omega

theorem Place.On.spot_behind (hp : p.On before text) (hq : q.On before text)
    (hrest : p.rest = passed ++ behind) (hpos : q.pos = p.pos + passed.length) :
    q.spot = ⟨passed.getLast?.or p.previous, behind⟩ := by
  have hdrop := hp.rest.symm.trans hrest
  rw [Place.spot, hq.rest, hq.previous, hp.previous, hpos, ← List.drop_drop, List.take_add, hdrop,
    List.drop_left, List.take_left, List.getLast?_append, Option.or_assoc]

/-- Every position that has been reached is the one of a place. -/
def Reached.Filled (reached : Reached) : Prop :=
  ∀ i, reached.seen.contains i = true → ∃ q ∈ reached.places, q.pos = i

theorem Reached.filled_nothing : Reached.nothing.Filled := by
  intro i hi
  cases (Positions.contains_empty i).symm.trans hi

theorem Reached.Filled.add {reached : Reached} (h : reached.Filled) (p : Place) :
    (reached.add p).Filled ∧ ∃ q ∈ (reached.add p).places, q.pos = p.pos := by
  unfold Reached.add
  split
  · rename_i hp
    exact ⟨h, h _ hp⟩
  · refine ⟨fun i hi => ?_, p, List.mem_cons_self, rfl⟩
    rw [Positions.contains_insert, Bool.or_eq_true, decide_eq_true_eq] at hi
    rcases hi with hi | rfl
    · obtain ⟨q, hq, hpos⟩ := h i hi
      exact ⟨q, List.mem_cons_of_mem _ hq, hpos⟩
    · exact ⟨p, List.mem_cons_self, rfl⟩

/-- Putting in places leaves one at each of their positions. -/
theorem Reached.Filled.exists_mem_foldl_add {reached : Reached} (h : reached.Filled)
    (hp : p ∈ places) : ∃ q ∈ (places.foldl Reached.add reached).places, q.pos = p.pos := by
  induction places generalizing reached with
  | nil => cases hp
  | cons first places ih =>
      obtain ⟨hfilled, q, hq, hpos⟩ := h.add first
      rcases List.mem_cons.mp hp with rfl | hp
      · have hkeeps := places_isSuffix_foldl places_isSuffix_add (reached.add p) places
        exact ⟨q, hkeeps.subset hq, hpos⟩
      · exact ih hfilled hp

/-- Among the places, one with each of the positions is kept. -/
theorem exists_mem_distinct (h : p ∈ places) : ∃ q ∈ distinct places, q.pos = p.pos := by
  obtain ⟨q, hq, hpos⟩ := Reached.filled_nothing.exists_mem_foldl_add h
  exact ⟨q, List.mem_reverse.mpr hq, hpos⟩

/-- Of places of one text, one at each of the spots is kept. -/
theorem exists_spot_distinct (hplaces : ∀ q ∈ places, q.On before text) (h : p ∈ places) :
    ∃ q ∈ distinct places, q.spot = p.spot := by
  obtain ⟨q, hq, hpos⟩ := exists_mem_distinct h
  exact ⟨q, hq, (hplaces q (mem_of_mem_distinct hq)).spot_eq (hplaces p h) hpos⟩

/-! ## Repetitions -/

/-- In the text, an occurrence of the body leads from the one position to the other. -/
def Round (body : Pattern) (before : Option Char) (text : List Char) (i j : Nat) : Prop :=
  ∃ passed groups, j = i + passed.length ∧ text.drop i = passed ++ text.drop j ∧
    Occurs body ((text.take i).getLast?.or before) passed (text.drop j) groups

/-- From the positions that have been reached, as far as they are not in front of `first`, one more
round leads to such positions only. -/
def ClosedFrom (body : Pattern) (before : Option Char) (text : List Char) (first : Nat)
    (reached : Reached) : Prop :=
  ∀ i, first ≤ i → reached.seen.contains i = true →
    ∀ j, Round body before text i j → reached.seen.contains j = true

/-- What walks from positions that are not in front of `pos` add. -/
structure Swept (body : Pattern) (before : Option Char) (text : List Char) (pos : Nat)
    (reached reached' : Reached) : Prop where
  places : reached.places ⊆ reached'.places
  keeps : ∀ i, reached.seen.contains i = true → reached'.seen.contains i = true
  within : ∀ i, reached'.seen.contains i = true → reached.seen.contains i = true ∨ pos ≤ i
  found : ∀ i, reached'.seen.contains i = true →
    reached.seen.contains i = true ∨ ∃ q ∈ reached'.places, q.pos = i
  goesOn : ∀ first, first ≤ pos → ClosedFrom body before text first reached →
    ClosedFrom body before text first reached'

namespace Swept

variable {body : Pattern} {pos pos' : Nat} {reached reached' reached'' : Reached}

theorem refl (pos : Nat) (reached : Reached) : Swept body before text pos reached reached :=
  ⟨List.Subset.refl _, fun _ h => h, fun _ h => Or.inl h, fun _ h => Or.inl h, fun _ _ h => h⟩

theorem trans (h : Swept body before text pos reached reached')
    (h' : Swept body before text pos reached' reached'') :
    Swept body before text pos reached reached'' where
  places := fun q hq => h'.places (h.places hq)
  keeps i hi := h'.keeps i (h.keeps i hi)
  within i hi := by
    rcases h'.within i hi with hi | hi
    · exact h.within i hi
    · exact Or.inr hi
  found i hi := by
    rcases h'.found i hi with hi | hi
    · rcases h.found i hi with hi | ⟨q, hq, hpos⟩
      · exact Or.inl hi
      · exact Or.inr ⟨q, h'.places hq, hpos⟩
    · exact Or.inr hi
  goesOn first hfirst hclosed := h'.goesOn first hfirst (h.goesOn first hfirst hclosed)

theorem mono (h : Swept body before text pos' reached reached') (hle : pos ≤ pos') :
    Swept body before text pos reached reached' where
  places := h.places
  keeps := h.keeps
  within i hi := (h.within i hi).imp_right fun hi => by omega
  found := h.found
  goesOn first hfirst := h.goesOn first (by omega)

/-- A place, and what is reached from it by one more round. -/
theorem enter (h : Swept body before text (p.pos + 1)
      { reached with seen := reached.seen.insert p.pos } reached')
    (hrounds : ∀ j, Round body before text p.pos j → reached'.seen.contains j = true) :
    Swept body before text p.pos reached { reached' with places := p :: reached'.places } := by
  have hmark (i : Nat) : (reached.seen.insert p.pos).contains i = true ↔
      reached.seen.contains i = true ∨ p.pos = i := by
    rw [Positions.contains_insert, Bool.or_eq_true, decide_eq_true_eq]
  refine ⟨fun q hq => List.mem_cons_of_mem _ (h.places hq), ?_, ?_, ?_, ?_⟩
  · exact fun i hi => h.keeps i ((hmark i).mpr (Or.inl hi))
  · intro i hi
    rcases h.within i hi with hi | hi
    · rcases (hmark i).mp hi with hi | rfl
      · exact Or.inl hi
      · exact Or.inr (Nat.le_refl _)
    · exact Or.inr (by omega)
  · intro i hi
    rcases h.found i hi with hi | ⟨q, hq, hpos⟩
    · rcases (hmark i).mp hi with hi | rfl
      · exact Or.inl hi
      · exact Or.inr ⟨p, List.mem_cons_self, rfl⟩
    · exact Or.inr ⟨q, List.mem_cons_of_mem _ hq, hpos⟩
  · intro first hfirst hclosed i hi hseen j hround
    have hmarked : ClosedFrom body before text (p.pos + 1)
        { reached with seen := reached.seen.insert p.pos } := by
      intro i hi hseen j hround
      have hold : reached.seen.contains i = true :=
        ((hmark i).mp hseen).resolve_right (by omega)
      exact (hmark j).mpr (Or.inl (hclosed i (by omega) hold j hround))
    rcases Nat.lt_trichotomy i p.pos with hlt | rfl | hgt
    · -- nothing in front of the place is new
      have hold : reached.seen.contains i = true := by
        rcases h.within i hseen with hseen | hle
        · exact ((hmark i).mp hseen).resolve_right (by omega)
        · omega
      exact h.keeps j ((hmark j).mpr (Or.inl (hclosed i hi hold j hround)))
    · exact hrounds j hround
    · exact h.goesOn (p.pos + 1) (Nat.le_refl _) hmarked i hgt hseen j hround

/-- Walks from places one after the other. Each may rely on the positions that had been reached in
front of the first of them. -/
theorem foldl_walk {walk : Reached → Place → Reached}
    (hwalk : ∀ q ∈ places, ∀ reached',
      (∀ i, reached.seen.contains i = true → reached'.seen.contains i = true) →
        Swept body before text pos reached' (walk reached' q) ∧
          (walk reached' q).seen.contains q.pos = true) :
    Swept body before text pos reached (places.foldl walk reached) ∧
      ∀ q ∈ places, (places.foldl walk reached).seen.contains q.pos = true := by
  induction places generalizing reached with
  | nil => exact ⟨.refl _ _, List.forall_mem_nil _⟩
  | cons q places ih =>
      obtain ⟨hq, hrest⟩ := List.forall_mem_cons.mp hwalk
      obtain ⟨hfirst, hhere⟩ := hq reached fun _ h => h
      obtain ⟨hswept, hall⟩ := ih fun q hq reached' hkeeps =>
        hrest q hq reached' fun i hi => hkeeps i (hfirst.keeps i hi)
      exact ⟨hfirst.trans hswept, List.forall_mem_cons.mpr ⟨hswept.keeps _ hhere, hall⟩⟩

end Swept

/-- The steps of a walk are the rounds. -/
structure Steps (body : Pattern) (before : Option Char) (text : List Char)
    (step : Place → List Place) : Prop where
  on : ∀ p, p.On before text → ∀ q ∈ step p, q.On before text
  le : ∀ p, ∀ q ∈ step p, p.pos ≤ q.pos
  misses : ∀ p, p.On before text → ∀ j, Round body before text p.pos j → ∃ q ∈ step p, q.pos = j

namespace Steps

variable {body : Pattern} {step : Place → List Place} {reached : Reached}

theorem sweep_of_seen (hseen : reached.seen.contains p.pos = true) :
    Pattern.sweep step limit reached p = reached := by
  cases limit with
  | zero => exact if_pos hseen
  | succ limit => exact if_pos hseen

/-- A sweep from a place. It may be as deep as the text behind the place is long, since every round
that comes to a new position goes forward. -/
theorem sweep (h : Steps body before text step) (hp : p.On before text)
    (hlimit : text.length ≤ p.pos + limit) :
    Swept body before text p.pos reached (Pattern.sweep step limit reached p) ∧
      (Pattern.sweep step limit reached p).seen.contains p.pos = true := by
  induction limit generalizing reached p with
  | zero =>
      unfold Pattern.sweep Reached.add
      split
      · rename_i hseen
        exact ⟨.refl _ _, hseen⟩
      · refine ⟨Swept.enter (.refl _ _) fun j hround => ?_, by simp [Positions.contains_insert]⟩
        -- behind the end of the text there is no position
        obtain ⟨passed, groups, rfl, hdrop, -⟩ := hround
        have hend : text.drop p.pos = [] := List.drop_eq_nil_of_le (by omega)
        rw [hend] at hdrop
        obtain ⟨rfl, -⟩ := List.append_eq_nil_iff.mp hdrop.symm
        simp [Positions.contains_insert]
  | succ limit ih =>
      unfold Pattern.sweep
      dsimp only
      split
      · rename_i hseen
        exact ⟨.refl _ _, hseen⟩
      · let entered : Reached := { reached with seen := reached.seen.insert p.pos }
        have hmark : entered.seen.contains p.pos = true := by
          simp [entered, Positions.contains_insert]
        have hfold : Swept body before text (p.pos + 1) entered
              ((step p).foldl (Pattern.sweep step limit) entered) ∧
            ∀ q ∈ step p,
              ((step p).foldl (Pattern.sweep step limit) entered).seen.contains q.pos = true := by
          refine Swept.foldl_walk fun q hq reached' hkeeps => ?_
          rcases Nat.eq_or_lt_of_le (h.le p q hq) with heq | hlt
          · -- a round that stays at the position comes to nothing new
            have hseen : reached'.seen.contains q.pos = true := heq ▸ hkeeps p.pos hmark
            rw [sweep_of_seen hseen]
            exact ⟨.refl _ _, hseen⟩
          · have hsweep : Swept body before text q.pos reached'
                  (Pattern.sweep step limit reached' q) ∧
                (Pattern.sweep step limit reached' q).seen.contains q.pos = true :=
              ih (h.on p hp q hq) (by omega)
            exact ⟨hsweep.1.mono hlt, hsweep.2⟩
        obtain ⟨hswept, hall⟩ := hfold
        refine ⟨hswept.enter fun j hround => ?_, hswept.keeps _ hmark⟩
        obtain ⟨q, hq, rfl⟩ := h.misses p hp j hround
        exact hall q hq

/-- Sweeps from places of the text one after the other. -/
theorem sweepAll (h : Steps body before text step) (hplaces : ∀ p ∈ places, p.On before text)
    (hlimit : text.length ≤ limit) (reached : Reached) :
    Swept body before text 0 reached (places.foldl (Pattern.sweep step limit) reached) ∧
      ∀ p ∈ places,
        (places.foldl (Pattern.sweep step limit) reached).seen.contains p.pos = true := by
  refine Swept.foldl_walk fun p hp reached' _ => ?_
  have hsweep : Swept body before text p.pos reached' (Pattern.sweep step limit reached' p) ∧
      (Pattern.sweep step limit reached' p).seen.contains p.pos = true :=
    h.sweep (hplaces p hp) (by omega)
  exact ⟨hsweep.1.mono (Nat.zero_le _), hsweep.2⟩

end Steps

/-- Round by round, a repetition leads from a position that has been reached to another one. -/
theorem ClosedFrom.contains_many {body : Pattern} {reached : Reached}
    (hclosed : ClosedFrom body before text 0 reached)
    (h : Occurs (.many body) previous passed behind groups) {i : Nat}
    (hi : reached.seen.contains i = true) (hle : i ≤ text.length)
    (hprevious : previous = (text.take i).getLast?.or before)
    (hdrop : text.drop i = passed ++ behind) :
    reached.seen.contains (i + passed.length) = true := by
  generalize hmany : Pattern.many body = pattern at h
  induction h generalizing i with
  | manyNone => exact hi
  | @manyMore body' previous round rest behind groups groups' hround _ _ ih =>
      cases hmany
      have htake : text.take (i + round.length) = text.take i ++ round := by
        rw [List.take_add, hdrop, List.append_assoc, List.take_left]
      have hnext : text.drop (i + round.length) = rest ++ behind := by
        rw [← List.drop_drop, hdrop, List.append_assoc, List.drop_left]
      have hlength := congrArg List.length hdrop
      simp only [List.length_drop, List.length_append] at hlength
      have hseen : reached.seen.contains (i + round.length) = true := by
        refine hclosed i (Nat.zero_le _) hi _ ⟨round, groups, rfl, ?_, ?_⟩
        · rw [hnext, hdrop, List.append_assoc]
        · rwa [hnext, ← hprevious]
      have hlast : round.getLast?.or previous =
          (text.take (i + round.length)).getLast?.or before := by
        rw [htake, List.getLast?_append, Option.or_assoc, hprevious]
      have hend := ih hseen (by omega) hlast hnext rfl
      rwa [List.length_append, ← Nat.add_assoc]
  | _ => cases hmany

/-- Rounds of a body whose search comes behind every occurrence in front of its place. -/
theorem Steps.of_flow {body : Pattern}
    (h : ∀ {p previous passed behind groups}, p.On before text →
      p.spot = ⟨previous, passed ++ behind⟩ → Occurs body previous passed behind groups →
        ∃ q ∈ body.flow limit [p], q.spot = ⟨passed.getLast?.or previous, behind⟩) :
    Steps body before text fun p => body.flow limit [p] where
  on p hp q hq := on_of_mem_flow (List.forall_mem_singleton.mpr hp) hq
  le p q hq := by
    obtain ⟨p', hp', passed, groups, -, hspans⟩ := arrives_of_mem_flow hq
    cases List.mem_singleton.mp hp'
    rw [hspans.pos]
    exact Nat.le_add_right _ _
  misses p hp j hround := by
    obtain ⟨round, groups, rfl, hdrop, hoccurs⟩ := hround
    have hspot : p.spot = ⟨(text.take p.pos).getLast?.or before,
        round ++ text.drop (p.pos + round.length)⟩ := by
      rw [Place.spot, hp.previous, hp.rest, hdrop]
    obtain ⟨q, hq, hqspot⟩ := h hp hspot hoccurs
    have hlength := congrArg List.length hdrop
    simp only [List.length_append, List.length_drop] at hlength
    have hle := hp.pos
    have hqOn := on_of_mem_flow (List.forall_mem_singleton.mpr hp) hq
    exact ⟨q, hq, hqOn.pos_eq (by omega) (congrArg Spot.rest hqspot)⟩

/-- The sweeps of a repetition come behind every occurrence of it. -/
theorem Steps.exists_mem_flow_many {body : Pattern}
    (hsteps : Steps body before text fun p => body.flow limit [p])
    (hlimit : text.length ≤ limit) (hplaces : ∀ p ∈ places, p.On before text)
    (hspot : ∃ p ∈ places, p.spot = ⟨previous, passed ++ behind⟩)
    (h : Occurs (.many body) previous passed behind groups) :
    ∃ q ∈ (many body).flow limit places, q.spot = ⟨passed.getLast?.or previous, behind⟩ := by
  have hclosed : ClosedFrom body before text 0 .nothing := by
    intro i _ hi
    cases (Positions.contains_empty i).symm.trans hi
  obtain ⟨hswept, hall⟩ := hsteps.sweepAll hplaces hlimit .nothing
  obtain ⟨p, hp, hspot⟩ := hspot
  obtain rfl : p.previous = previous := congrArg Spot.previous hspot
  have hrest : p.rest = passed ++ behind := congrArg Spot.rest hspot
  have hseen := (hswept.goesOn 0 (Nat.le_refl 0) hclosed).contains_many h (hall p hp)
    (hplaces p hp).pos (hplaces p hp).previous ((hplaces p hp).rest.symm.trans hrest)
  rcases hswept.found _ hseen with hnone | ⟨q, hq, hpos⟩
  · cases (Positions.contains_empty _).symm.trans hnone
  · have hq : q ∈ (many body).flow limit places := List.mem_reverse.mpr hq
    exact ⟨q, hq, (hplaces p hp).spot_behind (on_of_mem_flow hplaces hq) hrest hpos⟩

/-! ## All patterns -/

/-- A search from a place in front of an occurrence comes to the place behind it. -/
theorem exists_mem_flow (hlimit : text.length ≤ limit) (hplaces : ∀ p ∈ places, p.On before text)
    (hspot : ∃ p ∈ places, p.spot = ⟨previous, passed ++ behind⟩)
    (h : Occurs pattern previous passed behind groups) :
    ∃ q ∈ pattern.flow limit places, q.spot = ⟨passed.getLast?.or previous, behind⟩ := by
  induction pattern generalizing places previous passed behind groups with
  | empty =>
      cases h
      exact hspot
  | char test =>
      cases h with
      | @char _ _ c _ hc =>
          obtain ⟨p, hp, hspot⟩ := hspot
          have hrest : p.rest = c :: behind := congrArg Spot.rest hspot
          refine ⟨⟨p.pos + 1, some c, behind, p.begun, p.groups⟩,
            List.mem_filterMap.mpr ⟨p, hp, ?_⟩, rfl⟩
          simp [Place.step?, Place.next?, hrest, hc]
  | run least test =>
      cases h with
      | run hleast hpassed => exact exists_spot_spread false hleast hpassed hplaces hspot
  | reluctantRun least test =>
      cases h with
      | reluctantRun hleast hpassed => exact exists_spot_spread true hleast hpassed hplaces hspot
  | anchor condition =>
      cases h with
      | anchor hholds =>
          obtain ⟨p, hp, hspot⟩ := hspot
          refine ⟨p, List.mem_filter.mpr ⟨hp, ?_⟩, hspot⟩
          obtain rfl : p.previous = previous := congrArg Spot.previous hspot
          obtain rfl : p.rest = behind := congrArg Spot.rest hspot
          exact hholds
  | seq first second ihfirst ihsecond =>
      cases h with
      | seq h h' =>
          rw [List.append_assoc] at hspot
          have hmiddle := ihfirst hplaces hspot h
          have hend := ihsecond (fun q hq => on_of_mem_flow hplaces hq) hmiddle h'
          rwa [← Option.or_assoc, ← List.getLast?_append] at hend
  | alt first second ihfirst ihsecond =>
      obtain ⟨p, hp, hspot⟩ := hspot
      have hplace : ∀ q ∈ [p], q.On before text := List.forall_mem_singleton.mpr (hplaces p hp)
      have hsingle : ∃ q ∈ [p], q.spot = ⟨previous, passed ++ behind⟩ :=
        ⟨p, List.mem_singleton_self p, hspot⟩
      obtain ⟨q, hq, hqspot⟩ : ∃ q ∈ first.flow limit [p] ++ second.flow limit [p],
          q.spot = ⟨passed.getLast?.or previous, behind⟩ := by
        cases h with
        | altFirst h =>
            obtain ⟨q, hq, hqspot⟩ := ihfirst hplace hsingle h
            exact ⟨q, List.mem_append_left _ hq, hqspot⟩
        | altSecond h =>
            obtain ⟨q, hq, hqspot⟩ := ihsecond hplace hsingle h
            exact ⟨q, List.mem_append_right _ hq, hqspot⟩
      have hon : ∀ r ∈ places.flatMap fun p => first.flow limit [p] ++ second.flow limit [p],
          r.On before text := by
        intro r hr
        obtain ⟨p, hp, hr⟩ := List.mem_flatMap.mp hr
        have hplace : ∀ q ∈ [p], q.On before text := List.forall_mem_singleton.mpr (hplaces p hp)
        exact (List.mem_append.mp hr).elim (on_of_mem_flow hplace) (on_of_mem_flow hplace)
      have hq : q ∈ places.flatMap fun p => first.flow limit [p] ++ second.flow limit [p] :=
        List.mem_flatMap.mpr ⟨p, hp, hq⟩
      obtain ⟨r, hr, hrspot⟩ := exists_spot_distinct hon hq
      exact ⟨r, hr, hrspot.trans hqspot⟩
  | many body ih =>
      have hsteps : Steps body before text fun p => body.flow limit [p] :=
        .of_flow fun hp hspot h =>
          ih (List.forall_mem_singleton.mpr hp) ⟨_, List.mem_singleton_self _, hspot⟩ h
      exact hsteps.exists_mem_flow_many hlimit hplaces hspot h
  | group number body ih =>
      cases h with
      | group h =>
          have hentered : ∀ q ∈ places.map Place.enter, q.On before text := by
            intro q hq
            obtain ⟨p, hp, rfl⟩ := List.mem_map.mp hq
            exact ⟨(hplaces p hp).pos, (hplaces p hp).rest, (hplaces p hp).previous⟩
          obtain ⟨p, hp, hspot⟩ := hspot
          obtain ⟨q, hq, hqspot⟩ := ih hentered ⟨p.enter, List.mem_map_of_mem hp, hspot⟩ h
          exact ⟨q.leave number, List.mem_map_of_mem hq, (Place.spot_leave number q).trans hqspot⟩

/-! ## The search -/

theorem Occurs.finds (h : Occurs pattern previous text behind groups) :
    Finds pattern ⟨previous, text ++ behind⟩ := by
  intro limit before whole places hlimit hplaces hspot
  obtain ⟨q, hq, -⟩ := exists_mem_flow hlimit hplaces hspot h
  exact ⟨q, hq⟩

/-- The first match begins at the leftmost occurrence, and is an occurrence that begins there. -/
theorem findFrom?_occurs (hpos : p.pos = 0) (hcaptures : p.captures = [])
    (hrest : p.rest = front ++ (text ++ behind)) (hlimit : p.rest.length < limit)
    (hnone : NoneOccurs pattern p.previous front (text ++ behind))
    (h : Occurs pattern (front.getLast?.or p.previous) text behind groups) :
    ∃ text' groups' behind', Occurs pattern (front.getLast?.or p.previous) text' behind' groups' ∧
      text ++ behind = text' ++ behind' ∧
      pattern.findFrom? limit p = some ⟨front, ⟨text', (0, text') :: groups'⟩,
        ⟨0, text'.getLast?.or (front.getLast?.or p.previous), behind', [], []⟩⟩ :=
  findFrom?_leftmost hpos hcaptures hrest hlimit hnone h.finds

/-! ## Cutting -/

/-- The pattern does not occur as nothing. -/
def NeverEmpty (pattern : Pattern) : Prop :=
  ∀ previous behind groups, ¬ Occurs pattern previous [] behind groups

/-- The text with the replacements of the matches. -/
def Cuts.written (replacement : Match → List Char) (cuts : Cuts) : List Char :=
  cuts.found.flatMap (fun cut => cut.1 ++ replacement cut.2) ++ cuts.tail

theorem replaceAll_eq_written (pattern : Pattern) (replacement : Match → List Char)
    (text : List Char) :
    pattern.replaceAll replacement text = (pattern.cuts text).written replacement :=
  rfl

theorem NoneOccurs.append {front' : List Char}
    (h : NoneOccurs pattern previous front (front' ++ back))
    (h' : NoneOccurs pattern (front.getLast?.or previous) front' back) :
    NoneOccurs pattern previous (front ++ front') back := by
  intro passed left hfront hleft text groups rest heq hoccurs
  rcases List.append_eq_append_iff.mp hfront with ⟨more, rfl, rfl⟩ | ⟨more, rfl, rfl⟩
  · rw [List.getLast?_append, Option.or_assoc] at hoccurs
    exact h' more left rfl hleft text groups rest heq hoccurs
  · rw [List.append_assoc] at heq
    by_cases hmore : more = []
    · subst hmore
      rw [List.append_nil] at h'
      exact h' [] front' rfl hleft text groups rest heq hoccurs
    · exact h passed more rfl hmore text groups rest heq hoccurs

/-- A text in which the pattern does not occur is not cut. -/
theorem NoneOccurs.cutFrom {carried : List Char} {isBehind : Bool} (hpos : p.pos = 0)
    (hcaptures : p.captures = []) (hne : NeverEmpty pattern)
    (hnone : NoneOccurs pattern p.previous p.rest []) :
    pattern.cutFrom limit p carried isBehind = ⟨[], carried ++ p.rest⟩ := by
  have hfind : pattern.findFrom? limit p = none := by
    refine findFrom?_eq_none hpos hcaptures fun passed text groups rest hrest hoccurs => ?_
    have hleft : text ++ rest ≠ [] := by
      intro hnil
      obtain ⟨rfl, -⟩ := List.append_eq_nil_iff.mp hnil
      exact hne _ _ _ hoccurs
    exact hnone passed _ hrest hleft text groups rest (List.append_nil _) hoccurs
  cases limit with
  | zero => rfl
  | succ limit =>
      unfold Pattern.cutFrom
      rw [hfind]

/-- A text is cut at the leftmost occurrence, if nothing else that occurs there begins at the same
place. -/
theorem cutFrom_occurs (carried : List Char) (isBehind : Bool) (hpos : p.pos = 0)
    (hcaptures : p.captures = []) (hrest : p.rest = front ++ (text ++ behind))
    (hlimit : p.rest.length ≤ limit) (hne : NeverEmpty pattern)
    (hnone : NoneOccurs pattern p.previous front (text ++ behind))
    (h : Occurs pattern (front.getLast?.or p.previous) text behind groups)
    (honly : ∀ text' groups' behind', text ++ behind = text' ++ behind' →
      Occurs pattern (front.getLast?.or p.previous) text' behind' groups' → text' = text) :
    ∃ groups', Occurs pattern (front.getLast?.or p.previous) text behind groups' ∧
      ∀ replacement, (pattern.cutFrom (limit + 1) p carried isBehind).written replacement =
        carried ++ front ++ replacement ⟨text, (0, text) :: groups'⟩ ++
          (pattern.cutFrom limit
            ⟨0, text.getLast?.or (front.getLast?.or p.previous), behind, [], []⟩
              [] true).written replacement := by
  obtain ⟨text', groups', behind', hoccurs, heq, hfind⟩ :=
    findFrom?_occurs hpos hcaptures hrest (Nat.lt_succ_of_le hlimit) hnone h
  obtain rfl := honly text' groups' behind' heq hoccurs
  obtain rfl := List.append_cancel_left heq
  have htext : text'.isEmpty = false := by
    refine Bool.eq_false_iff.mpr fun hempty => ?_
    rw [List.isEmpty_iff.mp hempty] at hoccurs
    exact hne _ _ _ hoccurs
  refine ⟨groups', hoccurs, fun replacement => ?_⟩
  rw [Pattern.cutFrom, hfind]
  dsimp only
  rw [htext, if_neg Bool.false_ne_true]
  simp only [Cuts.written, List.flatMap_cons, List.append_assoc]

/-- A pattern that occurs once, in one way as far as the replacement tells, changes that place
only. -/
theorem replaceAll_once {replacement : Match → List Char} {new : List Char}
    (hne : NeverEmpty pattern) (hfront : NoneOccurs pattern none front (text ++ behind))
    (h : Occurs pattern front.getLast? text behind groups)
    (honly : ∀ text' groups' behind', text ++ behind = text' ++ behind' →
      Occurs pattern front.getLast? text' behind' groups' → text' = text)
    (hbehind : NoneOccurs pattern (text.getLast?.or front.getLast?) behind [])
    (hnew : ∀ groups', Occurs pattern front.getLast? text behind groups' →
      replacement ⟨text, (0, text) :: groups'⟩ = new) :
    pattern.replaceAll replacement (front ++ (text ++ behind)) = front ++ (new ++ behind) := by
  have hprevious : front.getLast?.or (Place.start (front ++ (text ++ behind))).previous =
      front.getLast? := Option.or_none
  obtain ⟨groups', hoccurs, hwritten⟩ := cutFrom_occurs
    (p := Place.start (front ++ (text ++ behind))) [] false rfl rfl rfl
    (Nat.le_refl _) hne hfront (by rwa [hprevious]) (by rwa [hprevious])
  rw [hprevious] at hoccurs hwritten
  rw [replaceAll_eq_written, cuts]
  refine (hwritten replacement).trans ?_
  rw [hnew groups' hoccurs, NoneOccurs.cutFrom rfl rfl hne hbehind]
  simp [Cuts.written]

end StepTrace.Pattern
