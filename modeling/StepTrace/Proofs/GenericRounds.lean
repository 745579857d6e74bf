import StepTrace.Proofs.GenericTypes
import Mathlib.Logic.Function.Iterate

/-!
# The pass for generic types

The pass removes innermost generic types round by round until the text stops changing, but not in
more than `maxRounds` rounds. A round that finds a match makes the text shorter by the brackets at
least (`once_cases`), so without the limit the rounds would always come to a text without a match.

It is said of the pass that what it leaves has no match, and that generic types within one another
lose all their brackets. This holds of texts that settle within the rounds that are allowed, and of
no others: `generics_settled_iff` says so of every text, and that types within one another settle
exactly if there are no more of them around one another than rounds. One type more, and a pair of
brackets is left (`not_settled_tooDeep`).
-/

namespace StepTrace.Lowering

open Pattern

/-- The pass for generic types, in which both typed languages agree. -/
def genericsPass : Pass :=
  ⟨.generics, genericRules, true⟩

/-! ## One round -/

theorem foldl_utf8Size (text : List Char) (n : Nat) :
    text.foldl (fun n c => n + c.utf8Size) n = n + byteLength text := by
  induction text generalizing n with
  | nil => rfl
  | cons c text ih =>
      unfold byteLength
      rw [List.foldl_cons, List.foldl_cons, ih, ih (0 + c.utf8Size)]
      omega

theorem byteLength_append (front back : List Char) :
    byteLength (front ++ back) = byteLength front + byteLength back := by
  unfold byteLength
  rw [List.foldl_append, foldl_utf8Size back]
  rfl

theorem exists_of_fits {m : Match} (h : m.Fits innermostGeneric) :
    ∃ name gap arguments, IsInnermost name gap arguments ∧
      m.text = genericType name gap arguments [] ∧ fill [.group 1] m = name := by
  obtain ⟨groups, hspells, hgroups⟩ := h
  obtain ⟨name, gap, arguments, hinnermost, htext, rfl⟩ := spells_innermostGeneric hspells
  refine ⟨name, gap, arguments, hinnermost, htext, ?_⟩
  have hname : m.group 1 = name := by
    rw [Match.group, Match.group?, hgroups]
    rfl
  rw [← hname]
  exact List.append_nil _

/-- A text with names in the place of matches is shorter by the brackets of each match, whether
characters are counted or bytes. -/
theorem size_named_le {size : List Char → Nat}
    (happend : ∀ front back, size (front ++ back) = size front + size back)
    (hopen : size ['<'] = 1) (hclose : size ['>'] = 1) {cuts : Cuts}
    (hfound : ∀ cut ∈ cuts.found, cut.2.Fits innermostGeneric) :
    size (named cuts) + 2 * cuts.found.length ≤
      size (cuts.found.flatMap (fun cut => cut.1 ++ cut.2.text) ++ cuts.tail) := by
  obtain ⟨found, tail⟩ := cuts
  induction found with
  | nil => exact Nat.le_refl _
  | cons cut found ih =>
      obtain ⟨hcut, hothers⟩ := List.forall_mem_cons.mp hfound
      obtain ⟨name, gap, arguments, -, htext, hname⟩ := exists_of_fits hcut
      obtain ⟨before, m⟩ := cut
      have hnamed :
          named ⟨(before, m) :: found, tail⟩ = before ++ (name ++ named ⟨found, tail⟩) := by
        simp [named, ← hname]
      have hmatch : m.text = name ++ (gap ++ (['<'] ++ (arguments ++ ['>']))) := htext
      have hrest := ih hothers
      rw [hnamed, List.flatMap_cons, hmatch]
      simp only [happend, hopen, hclose, List.length_cons] at hrest ⊢
      omega

theorem found_cuts_eq_nil_iff {text : List Char} :
    (innermostGeneric.cuts text).found = [] ↔ innermostGeneric.occursIn text = false := by
  unfold cuts occursIn find? cutFrom
  cases hfound : innermostGeneric.findFrom? (text.length + 1) (Place.start text) with
  | none => simp
  | some found =>
      obtain ⟨skipped, m, q⟩ := found
      obtain ⟨-, hfits, -⟩ := fits_of_findFrom? rfl rfl hfound
      obtain ⟨name, gap, arguments, hinnermost, htext, -⟩ := exists_of_fits hfits
      have hsome : m.text.isEmpty = false := by
        obtain ⟨c, others, rfl, -⟩ := hinnermost.name
        rw [htext]
        rfl
      simp [hsome]

theorem once_eq_named (text : List Char) :
    genericsPass.once text = named (innermostGeneric.cuts text) := rfl

/-- A round changes nothing if there is no match, and shortens the text if there is one. -/
theorem once_cases (text : List Char) :
    innermostGeneric.occursIn text = false ∧ genericsPass.once text = text ∨
      innermostGeneric.occursIn text = true ∧
        (genericsPass.once text).length + 2 ≤ text.length ∧
        byteLength (genericsPass.once text) < byteLength text := by
  have hwhole := flatMap_cuts innermostGeneric text
  have hfits : ∀ cut ∈ (innermostGeneric.cuts text).found, cut.2.Fits innermostGeneric :=
    fun cut hcut => fits_of_mem_cuts hcut
  rw [once_eq_named]
  cases hoccurs : innermostGeneric.occursIn text with
  | false =>
      have hnil := found_cuts_eq_nil_iff.mpr hoccurs
      rw [hnil] at hwhole
      refine Or.inl ⟨rfl, ?_⟩
      rw [named, hnil]
      exact hwhole
  | true =>
      have hsome : (innermostGeneric.cuts text).found ≠ [] := by
        intro hnil
        rw [found_cuts_eq_nil_iff.mp hnil] at hoccurs
        cases hoccurs
      have hone := List.length_pos_iff.mpr hsome
      have hchars := size_named_le (fun _ _ => List.length_append) rfl rfl hfits
      have hbytes := size_named_le byteLength_append rfl rfl hfits
      rw [hwhole] at hchars hbytes
      exact Or.inr ⟨rfl, by omega, by omega⟩

theorem once_of_settled {text : List Char} (h : innermostGeneric.occursIn text = false) :
    genericsPass.once text = text := by
  rcases once_cases text with ⟨-, heq⟩ | ⟨hoccurs, -⟩
  · exact heq
  · rw [h] at hoccurs
    cases hoccurs

/-! ## Many rounds -/

theorem repeat_eq_iterate (rounds : Nat) (text : List Char) :
    genericsPass.repeat rounds text = genericsPass.once^[rounds] text := by
  induction rounds generalizing text with
  | zero => rfl
  | succ rounds ih =>
      rw [Function.iterate_succ_apply, Pass.repeat]
      rcases once_cases text with ⟨-, heq⟩ | ⟨-, hchars, hbytes⟩
      · rw [heq, if_pos (by simp), Function.iterate_fixed heq]
      · have hchanged : genericsPass.once text ≠ text := by
          intro heq
          rw [heq] at hchars
          omega
        rw [if_neg (by simp [hchanged, hbytes]), ih]

theorem run_eq_iterate (text : List Char) :
    genericsPass.run text = genericsPass.once^[maxRounds] text := by
  have hstable : genericsPass.untilStable = true := rfl
  rw [Pass.run, if_pos hstable]
  exact repeat_eq_iterate maxRounds text

/-- Without a limit the rounds come to a text without a match. -/
theorem exists_settled (text : List Char) :
    ∃ rounds, 2 * rounds ≤ text.length ∧
      innermostGeneric.occursIn (genericsPass.once^[rounds] text) = false := by
  induction hlength : text.length using Nat.strong_induction_on generalizing text with
  | h length ih =>
      rcases once_cases text with ⟨hsettled, -⟩ | ⟨-, hchars, -⟩
      · exact ⟨0, Nat.zero_le _, hsettled⟩
      · obtain ⟨rounds, hrounds, hsettled⟩ := ih _ (by omega) (genericsPass.once text) rfl
        exact ⟨rounds + 1, by omega, hsettled⟩

theorem settled_run_iff (text : List Char) :
    innermostGeneric.occursIn (genericsPass.run text) = false ↔
      ∃ rounds ≤ maxRounds,
        innermostGeneric.occursIn (genericsPass.once^[rounds] text) = false := by
  rw [run_eq_iterate]
  constructor
  · intro h
    exact ⟨maxRounds, Nat.le_refl _, h⟩
  · rintro ⟨rounds, hrounds, h⟩
    obtain ⟨more, hmore⟩ := Nat.exists_eq_add_of_le' hrounds
    rw [hmore, Function.iterate_add_apply, Function.iterate_fixed (once_of_settled h)]
    exact h

/-! ## Types within one another -/

namespace GenericText

variable {text : GenericText}

theorem iterate_once (h : text.Proper isPlainChar true) (rounds : Nat) :
    genericsPass.once^[rounds] text.render = (strip^[rounds] text).render := by
  induction rounds generalizing text with
  | zero => rfl
  | succ rounds ih =>
      have hproper : text.strip.Proper isPlainChar true :=
        proper_strip (fun c hc => isPlainChar_of_isArgumentChar (isArgumentChar_of_isWordChar hc)) h
      rw [Function.iterate_succ_apply, Function.iterate_succ_apply, ← ih hproper]
      exact congrArg _ (apply_render h)

theorem depth_iterate_strip (rounds : Nat) : (strip^[rounds] text).depth = text.depth - rounds := by
  induction rounds generalizing text with
  | zero => rfl
  | succ rounds ih =>
      rw [Function.iterate_succ_apply, ih, depth_strip]
      omega

theorem proper_iterate_strip (h : text.Proper isPlainChar true) (rounds : Nat) :
    (strip^[rounds] text).Proper isPlainChar true := by
  induction rounds generalizing text with
  | zero => exact h
  | succ rounds ih =>
      exact ih (proper_strip
        (fun c hc => isPlainChar_of_isArgumentChar (isArgumentChar_of_isWordChar hc)) h)

theorem no_brackets_iff (h : text.Proper isPlainChar true) :
    ('<' ∉ text.render ∧ '>' ∉ text.render) ↔ text.depth = 0 := by
  constructor
  · rintro ⟨hopen, -⟩
    by_contra hdepth
    exact hopen (open_mem_render hdepth).1
  · intro hdepth
    have hplain := isPlainChar_of_mem_render (fun _ => id) h hdepth
    exact ⟨open_notMem_of_plain hplain, close_notMem_of_plain hplain⟩

theorem no_brackets_iterate_iff (h : text.Proper isPlainChar true) (rounds : Nat) :
    ('<' ∉ (strip^[rounds] text).render ∧ '>' ∉ (strip^[rounds] text).render) ↔
      text.depth ≤ rounds := by
  rw [no_brackets_iff (proper_iterate_strip h rounds), depth_iterate_strip]
  exact Nat.sub_eq_zero_iff_le

theorem run_render (h : text.Proper isPlainChar true) :
    genericsPass.run text.render = (strip^[maxRounds] text).render := by
  rw [run_eq_iterate, iterate_once h]

end GenericText

/-- **Generic types settle.** Both typed languages have the one pass for generic types. Its rounds
would always come to a text without a match, in half as many rounds as there are characters at
most. What the pass leaves has no match exactly if one of the rounds that are allowed leaves none,
and a text whose angle brackets all belong to generic types loses all of them exactly if no more
types are around one another than there are rounds. -/
theorem generics_settled_iff (text : List Char) :
    (∀ ruleset ∈ [java, cpp], ruleset.passes.filter (·.kind = .generics) = [genericsPass]) ∧
      (∃ rounds, 2 * rounds ≤ text.length ∧
        innermostGeneric.occursIn (genericsPass.once^[rounds] text) = false) ∧
      (innermostGeneric.occursIn (genericsPass.run text) = false ↔
        ∃ rounds ≤ maxRounds,
          innermostGeneric.occursIn (genericsPass.once^[rounds] text) = false) ∧
      ∀ types : GenericText, types.Proper isPlainChar true → types.render = text →
        (('<' ∉ genericsPass.run text ∧ '>' ∉ genericsPass.run text) ↔
          types.depth ≤ maxRounds) := by
  refine ⟨?_, exists_settled text, settled_run_iff text, ?_⟩
  · intro ruleset hruleset
    rcases List.mem_cons.mp hruleset with rfl | hruleset
    · rfl
    · rw [List.mem_singleton.mp hruleset]
      rfl
  · rintro types hproper rfl
    rw [types.run_render hproper]
    exact types.no_brackets_iterate_iff hproper maxRounds

/-- The type `Map<A, List<B>>`. -/
def mapToLists : GenericText :=
  .generic "Map".toList [] (.plain "A, ".toList
    (.generic "List".toList [] (.plain "B".toList .done) .done)) .done

/-- Two types around one another. -/
theorem generics_settled_mapToLists :
    mapToLists.Proper isPlainChar true ∧ mapToLists.render = "Map<A, List<B>>".toList ∧
      '<' ∉ genericsPass.run "Map<A, List<B>>".toList ∧
      '>' ∉ genericsPass.run "Map<A, List<B>>".toList := by
  have hname (c : Char) (rest : List Char) (hc : isNameHead c = true)
      (hrest : rest.all Text.isWordChar = true) : IsName (c :: rest) :=
    ⟨c, rest, rfl, hc, List.all_eq_true.mp hrest⟩
  have hproper : mapToLists.Proper isPlainChar true :=
    ⟨rfl, hname 'M' "ap".toList rfl rfl, List.forall_mem_nil _,
      ⟨List.all_eq_true.mp rfl, rfl, hname 'L' "ist".toList rfl rfl, List.forall_mem_nil _,
        ⟨List.all_eq_true.mp rfl, trivial⟩, trivial⟩, trivial⟩
  obtain ⟨-, -, -, htypes⟩ := generics_settled_iff "Map<A, List<B>>".toList
  exact ⟨hproper, rfl, (htypes mapToLists hproper rfl).mpr (by decide)⟩

/-! ## A type too many -/

/-- So many types around one another. -/
def nestedTypes : Nat → GenericText
  | 0 => .plain ['M'] .done
  | n + 1 => .generic ['M'] [] (nestedTypes n) .done

theorem depth_nestedTypes (n : Nat) : (nestedTypes n).depth = n := by
  induction n with
  | zero => rfl
  | succ n ih =>
      rw [nestedTypes, GenericText.depth, GenericText.depth, ih]
      omega

theorem proper_nestedTypes (n : Nat) (free : Bool) {allowed : Char → Bool}
    (hallowed : allowed 'M' = true) (h : n = 0 ∨ free = true) :
    (nestedTypes n).Proper allowed free := by
  induction n generalizing free allowed with
  | zero => exact ⟨List.forall_mem_singleton.mpr hallowed, trivial⟩
  | succ n ih =>
      have hname : IsName ['M'] := ⟨'M', [], rfl, rfl, List.forall_mem_nil _⟩
      exact ⟨h.resolve_left (Nat.succ_ne_zero n), hname, List.forall_mem_nil _,
        ih true rfl (Or.inr rfl), trivial⟩

theorem strip_nestedTypes (n : Nat) : (nestedTypes (n + 2)).strip = nestedTypes (n + 1) := by
  induction n with
  | zero => rfl
  | succ n ih =>
      rw [nestedTypes, GenericText.strip, depth_nestedTypes, if_neg (Nat.succ_ne_zero _), ih]
      rfl

theorem iterate_strip_nestedTypes (rounds : Nat) :
    GenericText.strip^[rounds] (nestedTypes (rounds + 1)) = nestedTypes 1 := by
  induction rounds with
  | zero => rfl
  | succ rounds ih => rw [Function.iterate_succ_apply, strip_nestedTypes, ih]

theorem render_nestedTypes (n : Nat) : (nestedTypes n).render =
    (List.replicate n ['M', '<']).flatten ++ 'M' :: List.replicate n '>' := by
  induction n with
  | zero => rfl
  | succ n ih =>
      rw [nestedTypes, GenericText.render, ih, List.replicate_succ, List.replicate_succ',
        List.flatten_cons]
      simp [genericType, GenericText.render]

/-- Sixty-five types around one another. -/
def tooDeep : List Char :=
  (List.replicate 65 ['M', '<']).flatten ++ 'M' :: List.replicate 65 '>'

/-- A round for each of sixty-four types, and the last one keeps its brackets. -/
theorem not_settled_tooDeep :
    genericsPass.run tooDeep = "M<M>".toList ∧
      innermostGeneric.occursIn (genericsPass.run tooDeep) = true := by
  have hproper (n : Nat) : (nestedTypes n).Proper isPlainChar true :=
    proper_nestedTypes n true rfl (Or.inr rfl)
  have hrun : genericsPass.run tooDeep = (nestedTypes 1).render := by
    rw [tooDeep, ← render_nestedTypes, GenericText.run_render (hproper 65)]
    exact congrArg GenericText.render (iterate_strip_nestedTypes 64)
  refine ⟨hrun, ?_⟩
  rw [hrun]
  rcases once_cases (nestedTypes 1).render with ⟨-, hsame⟩ | ⟨hoccurs, -⟩
  · have honce : genericsPass.once (nestedTypes 1).render = ['M'] :=
      GenericText.apply_render (hproper 1)
    rw [honce] at hsame
    cases hsame
  · exact hoccurs

end StepTrace.Lowering
