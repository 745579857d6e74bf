import StepTrace.Proofs.ParsedTree
import StepTrace.Proofs.TokenWalk

/-!
# Functions and their braces

The parser reads the functions whose braces the tokens tell of. Whatever it reads, its tokens
leave the marks of the parts of the tree and no others, and leave the same braces open
(`ReadsParts`); the induction is on the bound of the descent. So the bodies that cannot be
suspended can be found without a parser, by a walk over the tokens of a program
(`marks_of_parse`), and the scan can tell any two neighbours among the tokens apart.

* `ReadsParts`: where the functions of the parser walk.
-/

namespace StepTrace.Syntax

open Capture Reader

variable {seen : Location → Bool} {all : List Token} {b : Braces} {r r₁ r₂ : Border}
  {input : Input} {last : Token}

/-! ## Braces and arrows -/

theorem opensNext_peek (seen : Location → Bool) (input : Input) :
    opensNext seen input.tokens =
      (decide (input.peek.kind = .symbol .leftBrace) && seen input.peek.loc) := by
  obtain ⟨previous, tokens⟩ := input
  cases tokens <;> rfl

namespace Reader.Walks

variable {α β : Type} {m : Reader α} {b₀ : α → Braces} {b' : β → Braces}

/-- Where a block may begin. -/
theorem takingBrace {q q' : Reader β} (hq : ∀ l, Walks seen all (b.open l) .apart q b' r₂)
    (hq' : Walks seen all b r q' b' r₂) :
    Walks seen all b r (Reader.accept (.symbol .leftBrace) >>= fun holds => if holds then q else q')
      b' r₂ := by
  intro input last a rest hat h
  change (Reader.accept (.symbol .leftBrace) input >>= fun read =>
    (if read.1 then q else q') read.2) = .ok (a, rest) at h
  unfold Reader.accept at h
  split at h
  · rename_i hpeek
    have hopen : input.advance.At seen all (b.open input.peek.loc) .apart input.peek :=
      hat.advance hpeek nofun (Border.admits_of_plain rfl rfl r) rfl
    exact hq _ input.advance _ a rest hopen h
  · exact hq' input last a rest hat h

/-- Where a body has to begin, at a place that is looked up before. -/
theorem opening (what : String) {f : Location → Reader β}
    (hf : ∀ l, Walks seen all (b.open l) .apart (f l) b' r₂) :
    Walks seen all b r (here >>= fun l => expect (.symbol .leftBrace) what >>= fun _ => f l)
      b' r₂ := by
  intro input last a rest hat h
  change (expect (.symbol .leftBrace) what input >>= fun read => f input.peek.loc read.2) =
    .ok (a, rest) at h
  unfold expect at h
  split at h
  · rename_i hpeek
    have hopen : input.advance.At seen all (b.open input.peek.loc) .apart input.peek :=
      hat.advance hpeek nofun (Border.admits_of_plain rfl rfl r) rfl
    exact hf _ input.advance _ a rest hopen h
  · cases h

/-- Where a body has to end, at a place that is looked up before. -/
theorem closing (what : String) {f : Location → Reader β}
    (hf : ∀ l, Walks seen all (b.close l) .apart (f l) b' r₂) :
    Walks seen all b r (here >>= fun l => expect (.symbol .rightBrace) what >>= fun _ => f l)
      b' r₂ := by
  intro input last a rest hat h
  change (expect (.symbol .rightBrace) what input >>= fun read => f input.peek.loc read.2) =
    .ok (a, rest) at h
  unfold expect at h
  split at h
  · rename_i hpeek
    have hclose : input.advance.At seen all (b.close input.peek.loc) .apart input.peek :=
      hat.advance hpeek nofun (Border.admits_of_plain rfl rfl r) rfl
    exact hf _ input.advance _ a rest hclose h
  · cases h

/-- Where a brace that is no place of interest has to close. -/
theorem expectingBrace (what : String) {f : Unit → Reader β}
    (hf : ∀ l, Walks seen all (b.close l) .apart (f ()) b' r₂) :
    Walks seen all b r (expect (.symbol .rightBrace) what >>= f) b' r₂ :=
  closing what hf

/-- The word `async` before an arrow function. -/
theorem acceptAsync (hb : b.isAsync = false) :
    Walks seen all b .fresh (acceptWord .asyncKw) (fun isAsync => { b with isAsync }) .fresh := by
  intro input last a rest hat h
  unfold acceptWord Reader.accept at h
  split at h
  · rename_i hpeek
    cases h
    exact ⟨_, hat.advance hpeek nofun rfl rfl⟩
  · cases h
    rw [← hb]
    exact ⟨last, hat⟩

/-- Where an arrow has to be next, and behind it a block or an expression. -/
theorem arrow (hb : b.header = false) (what : String) {q q' : Location → Reader β}
    (hq : ∀ l, Walks seen all
      { b with
        opened := (if seen l && ! b.isAsync then some l else none) :: b.opened
        isAsync := false } .apart (q l) b' r₂)
    (hq' : ∀ l, Walks seen all { b with isAsync := false } .apart (q' l) b' r₂) :
    Walks seen all b r (expect (.symbol .arrow) what >>= fun _ => here >>= fun l =>
      acceptSymbol .leftBrace >>= fun holds => if holds then q l else q' l) b' r₂ := by
  obtain ⟨opened, header, isAsync, done⟩ := b
  obtain rfl : header = false := hb
  intro input last a rest hat h
  change (expect (.symbol .arrow) what input >>= fun read =>
    (here >>= fun l => acceptSymbol .leftBrace >>= fun holds =>
      if holds then q l else q' l) read.2) = .ok (a, rest) at h
  unfold expect at h
  split at h
  · rename_i hpeek
    have harrow : input.advance.At seen all
        ⟨opened, opensNext seen input.advance.tokens && ! isAsync, false, done⟩ .apart
          input.peek :=
      hat.advance hpeek nofun (Border.admits_of_plain rfl rfl r) rfl
    rw [opensNext_peek] at harrow
    change (Reader.accept (.symbol .leftBrace) input.advance >>= fun read =>
      (if read.1 then q input.advance.peek.loc else q' input.advance.peek.loc) read.2) =
        .ok (a, rest) at h
    unfold Reader.accept at h
    split at h
    · rename_i hbrace
      simp only [hbrace, decide_true, Bool.true_and] at harrow
      exact hq _ _ _ a rest (harrow.advance hbrace nofun rfl rfl) h
    · rename_i hbrace
      simp only [hbrace, decide_false, Bool.false_and] at harrow
      exact hq' _ _ _ a rest harrow h
  · cases h

end Reader.Walks

/-! ## Words and atoms -/

namespace Reader.Walks

variable {α β : Type} {m : Reader α} {b₀ : α → Braces} {b' : β → Braces}

/-- Where the words that start a function are taken if they are next. -/
theorem startsFunction (hb : b.Calm) (hfirst : ∀ k, r.admits (.keyword k) = true)
    {f : Bool → Reader β} {other : Reader β}
    (hf : ∀ isAsync, Walks seen all { b with header := ! isAsync } .apart (f isAsync) b' r₂)
    (hother : Walks seen all b r other b' r₂) :
    Walks seen all b r (do
      if Syntax.startsFunction (← upcoming) then
        let isAsync ← acceptWord .asyncKw
        Reader.skip
        f isAsync
      else other) b' r₂ := by
  obtain ⟨opened, header, isAsync₀, done⟩ := b
  obtain ⟨rfl, rfl⟩ : header = false ∧ isAsync₀ = false := ⟨hb.header, hb.isAsync⟩
  -- the word `function`, behind the word `async` or without it
  have hskip (isAsync : Bool) (r : Border) (hr : r.admits (.keyword .functionKw) = true) :
      ∀ input last a rest, input.At seen all ⟨opened, false, isAsync, done⟩ r last →
        input.peek.kind = .keyword .functionKw → (Reader.skip >>= fun _ => f isAsync) input =
          .ok (a, rest) → ∃ last', rest.At seen all (b' a) r₂ last' := by
    intro input last a rest hat hpeek h
    exact hf isAsync input.advance _ a rest (hat.advance hpeek nofun hr rfl) h
  intro input last a rest hat h
  change (if Syntax.startsFunction input.tokens then
    (Reader.accept (.keyword .asyncKw) >>= fun isAsync => Reader.skip >>= fun _ => f isAsync)
    else other) input = .ok (a, rest) at h
  split at h
  · rename_i hstarts
    change (Reader.accept (.keyword .asyncKw) input >>= fun read =>
      (Reader.skip >>= fun _ => f read.1) read.2) = .ok (a, rest) at h
    unfold Reader.accept at h
    rcases peek_of_startsFunction hstarts with hpeek | ⟨hasync, hpeek⟩
    · rw [if_neg (by simp [hpeek])] at h
      exact hskip false r (hfirst _) input last a rest hat hpeek h
    · rw [if_pos hasync] at h
      have hword : input.advance.At seen all ⟨opened, false, true, done⟩ .apart input.peek :=
        hat.advance hasync nofun (hfirst _) rfl
      exact hskip true .apart rfl input.advance _ a rest hword hpeek h
  · exact hother input last a rest hat h

/-- Where a literal or a name may be the whole expression. -/
theorem acceptAtom {f : Option Expr → Reader β} (hnone : Walks seen all b .fresh (f none) b' r₂)
    (hsome : ∀ e, Walks seen all (b.add seen (exprParts e)) .ended (f (some e)) b' r₂) :
    Walks seen all b .fresh (Syntax.acceptAtom >>= f) b' r₂ := by
  intro input last a rest hat h
  change (Syntax.acceptAtom input >>= fun read => f read.1 read.2) = .ok (a, rest) at h
  have hquiet : ∀ e, exprParts e = [] → isQuiet input.peek.kind = true →
      input.peek.kind ≠ .endOfInput → startsGreater input.peek.kind = false →
      endsInEqual input.peek.kind = false → f (some e) input.advance = .ok (a, rest) →
        ∃ last', rest.At seen all (b' a) r₂ last' := by
    intro e he hkind hend hgreater hequal h
    have hpass : Passable b .fresh .ended input.peek.kind :=
      passable_of_quiet hkind (by simp [Border.admits, hgreater]) (by simp [Border.leaves, hequal])
        hend b
    have hwalks := hsome e
    rw [he, Braces.add_nil] at hwalks
    exact hwalks _ _ a rest (hat.pass hpass rfl) h
  unfold Syntax.acceptAtom at h
  dsimp only at h
  split at h
  case h_8 => exact hnone input last a rest hat h
  case h_2 digits hpeek =>
    exact hsome (.bigint digits input.peek.loc) input.advance _ a rest
      (hat.advance hpeek (by simp) rfl rfl) h
  all_goals
    rename_i hpeek
    refine hquiet _ rfl ?_ ?_ ?_ ?_ h <;> rw [hpeek] <;> first | rfl | simp

theorem fieldName : Walks seen all b .fresh Syntax.fieldName (fun _ => b) .ended := by
  intro input last x rest hat h
  unfold Syntax.fieldName at h
  have hquiet : isQuiet input.peek.kind = true → input.peek.kind ≠ .endOfInput →
      startsGreater input.peek.kind = false → endsInEqual input.peek.kind = false →
        ∃ last', input.advance.At seen all b .ended last' := by
    intro hkind hend hgreater hequal
    have hpass : Passable b .fresh .ended input.peek.kind :=
      passable_of_quiet hkind (by simp [Border.admits, hgreater]) (by simp [Border.leaves, hequal])
        hend b
    exact ⟨_, hat.pass hpass rfl⟩
  split at h
  case h_4 => cases h
  all_goals
    rename_i hpeek
    cases h
    refine hquiet ?_ ?_ ?_ ?_ <;> rw [hpeek] <;> first | rfl | simp

end Reader.Walks

/-! ## Operators and the words of declarations -/

theorem Reader.Takes.walks {α β : Type} {m : Reader (Option α)} {kinds : List Kind}
    (hm : m.Takes kinds) (hpass : ∀ kind ∈ kinds, ∀ b, Passable b r r₁ kind)
    {f : Option α → Reader β} {b' : β → Braces} (hnone : Walks seen all b r (f none) b' r₂)
    (hsome : ∀ a, Walks seen all b r₁ (f (some a)) b' r₂) :
    Walks seen all b r (m >>= f) b' r₂ := by
  intro input last y rest hat h
  obtain ⟨x?, input', hread, hgoes⟩ := Reader.bind_ok h
  rcases hm input x? input' hread with ⟨rfl, rfl⟩ | ⟨⟨x, rfl⟩, hkind, rfl⟩
  · exact hnone _ last y rest hat hgoes
  · exact hsome x _ _ y rest (hat.pass (hpass _ hkind b) rfl) hgoes

/-- Plain tokens may be taken on any border. -/
theorem passable_of_plain {kinds : List Kind} (h : ∀ kind ∈ kinds, isPlain kind = true)
    (r r₁ : Border) : ∀ kind ∈ kinds, ∀ b, Passable b r r₁ kind :=
  fun kind hkind _ => passable (h kind hkind) r₁

/-- A symbol that stands between two operands. -/
theorem passable_operator {s : Symbol} (h : isQuiet (.symbol s) = true) (b : Braces) :
    Passable b .ended .fresh (.symbol s) :=
  passable_of_quiet h rfl rfl nofun b

/-- The operators of the level do nothing to the braces. -/
def QuietLevel (level : List OperatorOf) : Prop :=
  ∀ op ∈ level, isQuiet (.symbol op.1) = true

theorem quiet_levels : ∀ level ∈ levels, QuietLevel level := by
  unfold QuietLevel
  decide

theorem passable_levelKinds {level : List OperatorOf} (hlevel : QuietLevel level) :
    ∀ kind ∈ levelKinds level, ∀ b, Passable b .ended .fresh kind :=
  List.forall_mem_map.mpr fun op hop => passable_operator (hlevel op hop)

theorem passable_compoundKinds : ∀ kind ∈ compoundKinds, ∀ b, Passable b .ended .fresh kind := by
  simp only [compoundKinds, List.forall_mem_cons]
  exact ⟨passable_operator rfl, passable_operator rfl, passable_operator rfl,
    passable_operator rfl, passable_operator rfl, List.forall_mem_nil _⟩

/-! ## Names -/

theorem nameList_walks (left : Nat) : Walks seen all b r (nameList left) (fun _ => b) .apart := by
  induction left generalizing r with
  | zero => exact Walks.look _ fun l => Walks.failAt l _
  | succ left ih =>
      unfold nameList
      refine Walks.name.bind fun x => Walks.taking (passable rfl .apart) ?_ ?_
      · exact ih.bind fun names => Walks.pure rfl (Border.Below.refl _)
      · exact Walks.pure rfl (Border.Below.refl _)

theorem parameters_walks : Walks seen all b r parameters (fun _ => b) .mild := by
  unfold parameters
  refine Walks.choice _ (Walks.pure rfl (Border.below_mild _)) ?_
  exact Walks.look _ fun tokens =>
    (nameList_walks _).mono (Border.Below.refl _) (Border.below_mild _)

theorem binderNames_walks (left : Nat) :
    Walks seen all b r (binderNames left) (fun _ => b) .mild := by
  induction left generalizing r with
  | zero => exact Walks.look _ fun l => Walks.failAt l _
  | succ left ih =>
      unfold binderNames
      refine Walks.choice _ (Walks.pure rfl (Border.below_mild _)) ?_
      refine Walks.name.bind fun x => Walks.taking (passable rfl .apart) ?_ ?_
      · exact ih.bind fun names => Walks.pure rfl (Border.Below.refl _)
      · exact Walks.pure rfl (Border.below_mild _)

theorem binder_walks : Walks seen all b r binder (fun _ => b) .apart := by
  unfold binder
  refine Walks.taking (passable rfl .apart) ?_ ?_
  · refine Walks.look _ fun tokens => (binderNames_walks _).bind fun names => ?_
    exact Walks.expecting (passable rfl .apart) _ (Walks.pure rfl (Border.Below.refl _))
  · exact Walks.name.bind fun x => Walks.pure rfl (Border.Below.refl _)

/-! ## Closed bodies -/

-- where a tree is made of others, its parts are theirs
attribute [local simp] exprParts elementParts fieldParts functionParts optionalParts
  declaratorParts stmtParts parts

theorem calm_open (b : Braces) (l : Location) : (b.open l).Calm :=
  ⟨rfl, rfl⟩

theorem Braces.Calm.behindArrow (hb : b.Calm) (opened : List (Option Location)) :
    ({ b with opened, isAsync := false } : Braces).Calm :=
  ⟨hb.header, rfl⟩

/-- A block that is no body of a function leaves the marks of its parts only. -/
theorem close_block (hb : b.Calm) (ps : List Part) (first final : Location) :
    ((b.open first).add seen ps).close final = b.add seen ps := by
  obtain ⟨opened, header, isAsync, done⟩ := b
  obtain ⟨rfl, rfl⟩ : header = false ∧ isAsync = false := ⟨hb.header, hb.isAsync⟩
  simp [Braces.open, Braces.close, Braces.add]

/-- A body behind the word `function` leaves a mark of its own unless it can be suspended. -/
theorem close_function (hb : b.Calm) (x : Option String) (params : List String)
    (body : List Stmt) (isAsync : Bool) (first final : Location) :
    ((({ b with header := ! isAsync } : Braces).open first).add seen (parts body)).close final =
      b.add seen (functionParts (.mk x params body isAsync false (some (first, final)))) := by
  obtain ⟨opened, header, isAsync₀, done⟩ := b
  obtain ⟨rfl, rfl⟩ : header = false ∧ isAsync₀ = false := ⟨hb.header, hb.isAsync⟩
  cases isAsync <;> simp [Braces.open, Braces.close, Braces.add, Part.mark?]

/-- A body behind an arrow leaves a mark of its own unless it can be suspended or is not seen. -/
theorem close_arrow (hb : b.Calm) (params : List String) (body : List Stmt) (isAsync : Bool)
    (first final : Location) :
    (({ b with
      opened := (if seen first && ! isAsync then some first else none) :: b.opened
      isAsync := false } : Braces).add seen (parts body)).close final =
      b.add seen (functionParts (.mk none params body isAsync true (some (first, final)))) := by
  obtain ⟨opened, header, isAsync₀, done⟩ := b
  obtain ⟨rfl, rfl⟩ : header = false ∧ isAsync₀ = false := ⟨hb.header, hb.isAsync⟩
  cases isAsync <;> cases hseen : seen first <;>
    simp [Braces.close, Braces.add, Part.mark?, hseen]

/-! ## The functions of the parser -/

/-- The parts of the first clause of a loop, if it has one. -/
def firstParts : Option ForStart → List Part
  | none => []
  | some start => startParts start

/-- With this bound, the functions of the parser leave the marks of the parts that they read. An
expression may begin on a border where no `>` is next and ends where no function may begin; a
statement begins and ends where any token may be next. -/
structure ReadsParts (seen : Location → Bool) (all : List Token) (left : Nat) : Prop where
  expression : ∀ b : Braces, b.Calm → Walks seen all b .fresh (expression left)
    (fun e => b.add seen (exprParts e)) .ended
  arrowFunction : ∀ b : Braces, b.Calm → Walks seen all b .fresh (arrowFunction left)
    (fun e => b.add seen (exprParts e)) .ended
  conditional : ∀ b : Braces, b.Calm → Walks seen all b .fresh (conditional left)
    (fun e => b.add seen (exprParts e)) .ended
  binary : ∀ b : Braces, b.Calm → ∀ levels, (∀ level ∈ levels, QuietLevel level) →
    Walks seen all b .fresh (binary left levels) (fun e => b.add seen (exprParts e)) .ended
  binaryRest : ∀ b : Braces, b.Calm → ∀ level tighter (first : Expr), QuietLevel level →
    (∀ level ∈ tighter, QuietLevel level) →
    Walks seen all (b.add seen (exprParts first)) .ended (binaryRest left level tighter first)
      (fun e => b.add seen (exprParts e)) .ended
  power : ∀ b : Braces, b.Calm → Walks seen all b .fresh (power left)
    (fun e => b.add seen (exprParts e)) .ended
  unary : ∀ b : Braces, b.Calm → Walks seen all b .fresh (unary left)
    (fun e => b.add seen (exprParts e)) .ended
  trailers : ∀ b : Braces, b.Calm → ∀ e : Expr, Walks seen all (b.add seen (exprParts e)) .ended
    (trailers left e) (fun e => b.add seen (exprParts e)) .ended
  construction : ∀ b : Braces, b.Calm → ∀ (input : Input) last e rest,
    input.At seen all b .fresh last → input.peek.kind = .keyword .newKw →
      construction left input = .ok (e, rest) →
        ∃ last', rest.At seen all (b.add seen (exprParts e)) .ended last'
  constructorPath : ∀ b : Braces, b.Calm → ∀ e : Expr,
    Walks seen all (b.add seen (exprParts e)) .ended (constructorPath left e)
      (fun e => b.add seen (exprParts e)) .ended
  elements : ∀ b : Braces, b.Calm → ∀ close, Walks seen all b .fresh (elements left close)
    (fun es => b.add seen (elementParts es)) .mild
  fields : ∀ b : Braces, b.Calm → Walks seen all b .fresh (fields left)
    (fun fs => b.add seen (fieldParts fs)) .mild
  primary : ∀ b : Braces, b.Calm → Walks seen all b .fresh (primary left)
    (fun e => b.add seen (exprParts e)) .ended
  functionRest : ∀ b : Braces, b.Calm → ∀ x isAsync,
    Walks seen all { b with header := ! isAsync } .apart (functionRest left x isAsync)
      (fun f => b.add seen (functionParts f)) .apart
  declarators : ∀ b : Braces, b.Calm → ∀ kind, Walks seen all b .apart (declarators left kind)
    (fun ds => b.add seen (declaratorParts ds)) .ended
  statements : ∀ b : Braces, b.Calm → Walks seen all b .apart (statements left)
    (fun stmts => b.add seen (parts stmts)) .apart
  body : ∀ b : Braces, b.Calm → Walks seen all b .apart (body left)
    (fun stmts => b.add seen (parts stmts)) .apart
  forLoop : ∀ b : Braces, b.Calm → ∀ l, Walks seen all b .apart (forLoop left l)
    (fun stmt => b.add seen (stmtParts stmt)) .apart
  forRest : ∀ b : Braces, b.Calm → ∀ l start, Walks seen all (b.add seen (firstParts start)) .ended
    (forRest left l start) (fun stmt => b.add seen (stmtParts stmt)) .apart
  statement : ∀ b : Braces, b.Calm → Walks seen all b .apart (statement left)
    (fun stmt => b.add seen (stmtParts stmt)) .apart

namespace ReadsParts

variable {left : Nat} (h : ReadsParts seen all left) (hb : b.Calm)
include h hb

theorem expression_succ : Walks seen all b .fresh (Syntax.expression (left + 1))
    (fun e => b.add seen (exprParts e)) .ended := by
  unfold Syntax.expression
  refine Walks.look _ fun tokens => ?_
  split
  · exact h.arrowFunction b hb
  · refine (h.conditional b hb).bind fun e => Walks.look _ fun l => ?_
    refine Walks.taking (passable_operator rfl _) ?_ ?_
    · split
      · exact Walks.failAt _ _
      · rename_i target htarget
        refine (h.expression _ (hb.add _)).bind fun value => Walks.pure ?_ (Border.Below.refl _)
        simp [target?_parts htarget]
    · refine acceptCompound_takes.walks passable_compoundKinds
        (Walks.pure rfl (Border.Below.refl _)) fun op => ?_
      dsimp only
      split
      · exact Walks.failAt _ _
      · rename_i place hplace
        refine (h.expression _ (hb.add _)).bind fun value => Walks.pure ?_ (Border.Below.refl _)
        simp [place?_parts hplace]

theorem conditional_succ : Walks seen all b .fresh (Syntax.conditional (left + 1))
    (fun e => b.add seen (exprParts e)) .ended := by
  unfold Syntax.conditional
  refine (h.binary b hb levels quiet_levels).bind fun condition => Walks.look _ fun l => ?_
  refine Walks.taking (passable rfl .fresh) ?_ ?_
  · refine (h.expression _ (hb.add _)).bind fun whenTrue => ?_
    refine Walks.expecting (passable rfl .fresh) _ ?_
    refine (h.expression _ ((hb.add _).add _)).bind fun whenFalse => ?_
    exact Walks.pure (by simp) (Border.Below.refl _)
  · exact Walks.pure rfl (Border.Below.refl _)

theorem arrowFunction_succ : Walks seen all b .fresh (Syntax.arrowFunction (left + 1))
    (fun e => b.add seen (exprParts e)) .ended := by
  unfold Syntax.arrowFunction
  have hparams (isAsync : Bool) : Walks seen all { b with isAsync } .fresh (do
        if ← acceptSymbol .leftParen then
          let params ← parameters
          expectSymbol .rightParen "after arrow parameters"
          return params
        else return [← Reader.name]) (fun _ => { b with isAsync }) .apart := by
    refine Walks.taking (passable rfl .apart) ?_ ?_
    · refine parameters_walks.bind fun params => ?_
      exact Walks.expecting (passable rfl .apart) _ (Walks.pure rfl (Border.Below.refl _))
    · exact Walks.name.bind fun x => Walks.pure rfl (Border.Below.refl _)
  refine Walks.look _ fun l => (Walks.acceptAsync hb.isAsync).bind fun isAsync => ?_
  have hheader : ({ b with isAsync } : Braces).header = false := hb.header
  refine (hparams isAsync).bind fun params => Walks.arrow hheader _ ?_ ?_
  · intro opening
    refine (h.statements _ (hb.behindArrow _)).bind fun body => ?_
    refine Walks.closing _ fun closing => ?_
    exact Walks.pure (close_arrow hb params body isAsync opening closing).symm
      (Border.apart_below _)
  · intro opening
    have hb' : ({ b with isAsync := false } : Braces) = b := by rw [← hb.isAsync]
    rw [hb']
    refine ((h.expression b hb).mono (Border.apart_below _) (Border.Below.refl _)).bind
      fun value => Walks.pure ?_ (Border.Below.refl _)
    simp [Braces.add, Part.mark?]

theorem binary_succ (levels : List (List OperatorOf))
    (hlevels : ∀ level ∈ levels, QuietLevel level) :
    Walks seen all b .fresh (Syntax.binary (left + 1) levels)
      (fun e => b.add seen (exprParts e)) .ended := by
  unfold Syntax.binary
  cases levels with
  | nil => exact h.power b hb
  | cons level tighter =>
      obtain ⟨hlevel, htighter⟩ := List.forall_mem_cons.mp hlevels
      exact (h.binary b hb tighter htighter).bind fun first =>
        h.binaryRest b hb level tighter first hlevel htighter

theorem binaryRest_succ (level : List OperatorOf) (tighter : List (List OperatorOf))
    (first : Expr) (hlevel : QuietLevel level) (htighter : ∀ level ∈ tighter, QuietLevel level) :
    Walks seen all (b.add seen (exprParts first)) .ended
      (Syntax.binaryRest (left + 1) level tighter first)
      (fun e => b.add seen (exprParts e)) .ended := by
  unfold Syntax.binaryRest
  refine Walks.look _ fun l =>
    (acceptOperator_takes level).walks (passable_levelKinds hlevel) ?_ fun op => ?_
  · exact Walks.pure rfl (Border.Below.refl _)
  · refine (h.binary _ (hb.add _) tighter htighter).bind fun second => ?_
    rw [Braces.add_add]
    exact h.binaryRest b hb level tighter (.binary op first second l) hlevel htighter

theorem power_succ : Walks seen all b .fresh (Syntax.power (left + 1))
    (fun e => b.add seen (exprParts e)) .ended := by
  unfold Syntax.power
  refine (h.unary b hb).bind fun base => Walks.look _ fun l => ?_
  refine Walks.taking (passable_operator rfl _) ?_ (Walks.pure rfl (Border.Below.refl _))
  refine (h.power _ (hb.add _)).bind fun exponent => Walks.pure ?_ (Border.Below.refl _)
  simp

theorem unary_succ : Walks seen all b .fresh (Syntax.unary (left + 1))
    (fun e => b.add seen (exprParts e)) .ended := by
  unfold Syntax.unary
  have hfirst : Walks seen all b .fresh (do
      if ← sees (.keyword .newKw) then Syntax.construction left else Syntax.primary left)
      (fun e => b.add seen (exprParts e)) .ended := by
    intro input last e rest hat hread
    change (if decide (input.peek.kind = .keyword .newKw) = true then Syntax.construction left
      else Syntax.primary left) input = .ok (e, rest) at hread
    split at hread
    · rename_i hnew
      exact h.construction b hb input last e rest hat (of_decide_eq_true hnew) hread
    · exact h.primary b hb input last e rest hat hread
  refine Walks.look _ fun l => Walks.taking (passable rfl .fresh) ?_ ?_
  · exact (h.unary b hb).bind fun operand => Walks.pure rfl (Border.Below.refl _)
  · refine acceptFront_takes.walks (passable_of_plain (by decide) _ .apart) ?_ fun front => ?_
    · exact hfirst.bind fun first => h.trailers b hb first
    · have hunary := (h.unary b hb).mono (Border.apart_below _) (Border.Below.refl _)
      cases front with
      | pure op => exact hunary.bind fun operand => Walks.pure rfl (Border.Below.refl _)
      | update op =>
          refine hunary.bind fun operand => ?_
          split
          · exact Walks.failAt _ _
          · rename_i place hplace
            refine Walks.pure ?_ (Border.Below.refl _)
            simp [place?_parts hplace]

theorem trailers_succ (e : Expr) : Walks seen all (b.add seen (exprParts e)) .ended
    (Syntax.trailers (left + 1) e) (fun e => b.add seen (exprParts e)) .ended := by
  unfold Syntax.trailers
  refine Walks.look _ fun l =>
    acceptBehind_takes.walks (passable_of_plain (by decide) _ .apart) ?_ fun op => ?_
  · refine Walks.taking (passable rfl .fresh) ?_ ?_
    · refine (h.expression _ (hb.add _)).bind fun key => ?_
      refine Walks.expecting (passable rfl .ended) _ ?_
      rw [Braces.add_add]
      exact h.trailers b hb (.index e key l)
    · refine Walks.taking (passable rfl .apart) ?_ ?_
      · refine Walks.name.bind fun x => ?_
        exact (h.trailers b hb (.member e x l)).mono (Border.apart_below _) (Border.Below.refl _)
      · refine Walks.taking (passable rfl .fresh) ?_ (Walks.pure rfl (Border.Below.refl _))
        refine (h.elements _ (hb.add _) _).bind fun args => ?_
        refine Walks.expecting (passable rfl .ended) _ ?_
        rw [Braces.add_add]
        exact h.trailers b hb (.call e args l)
  · dsimp only
    split
    · exact Walks.failAt _ _
    · rename_i place hplace
      have htrailers := (h.trailers b hb (.update op place l)).mono (Border.apart_below _)
        (Border.Below.refl _)
      rwa [exprParts, place?_parts hplace] at htrailers

theorem construction_succ (input : Input) (last : Token) (e : Expr) (rest : Input)
    (hat : input.At seen all b .fresh last) (hpeek : input.peek.kind = .keyword .newKw)
    (hread : Syntax.construction (left + 1) input = .ok (e, rest)) :
    ∃ last', rest.At seen all (b.add seen (exprParts e)) .ended last' := by
  have hpath (l : Location) : Walks seen all b .fresh (do
      let callee ← Syntax.constructorPath left (← Syntax.primary left)
      if ← acceptSymbol .leftParen then
        let args ← Syntax.elements left .rightParen
        expectSymbol .rightParen "after constructor arguments"
        return .construct callee args l
      else return .construct callee [] l) (fun e => b.add seen (exprParts e)) .ended := by
    refine (h.primary b hb).bind fun first => (h.constructorPath b hb first).bind fun callee => ?_
    refine Walks.taking (passable rfl .fresh) ?_ (Walks.pure ?_ (Border.Below.refl _))
    · refine (h.elements _ (hb.add _) _).bind fun args => ?_
      refine Walks.expecting (passable rfl .apart) _ (Walks.pure ?_ (Border.apart_below _))
      simp
    · simp
  unfold Syntax.construction at hread
  exact hpath input.peek.loc input.advance _ e rest (hat.pass (passable rfl .fresh) hpeek) hread

theorem constructorPath_succ (e : Expr) : Walks seen all (b.add seen (exprParts e)) .ended
    (Syntax.constructorPath (left + 1) e) (fun e => b.add seen (exprParts e)) .ended := by
  unfold Syntax.constructorPath
  refine Walks.look _ fun l => Walks.taking (passable rfl .apart) ?_ ?_
  · refine Walks.name.bind fun x => ?_
    exact (h.constructorPath b hb (.member e x l)).mono (Border.apart_below _)
      (Border.Below.refl _)
  · exact Walks.pure rfl (Border.Below.refl _)

theorem elements_succ (close : Symbol) : Walks seen all b .fresh
    (Syntax.elements (left + 1) close) (fun es => b.add seen (elementParts es)) .mild := by
  unfold Syntax.elements
  refine Walks.look _ fun isClosed => Walks.look _ fun isEnd => ?_
  split
  · exact Walks.pure (Braces.add_nil b) (Border.below_mild _)
  · refine Walks.look _ fun l => ?_
    have helement : Walks seen all b .fresh (do
          if ← acceptSymbol .ellipsis then return Element.spread (← Syntax.expression left) l
          else return Element.item (← Syntax.expression left))
        (fun element => b.add seen (elementParts [element])) .ended := by
      refine Walks.taking (passable rfl .fresh) ?_ ?_
      · refine (h.expression b hb).bind fun e => Walks.pure ?_ (Border.Below.refl _)
        simp
      · refine (h.expression b hb).bind fun e => Walks.pure ?_ (Border.Below.refl _)
        simp
    refine helement.bind fun element => Walks.taking (passable rfl .fresh) ?_ ?_
    · refine (h.elements _ (hb.add _) close).bind fun rest => ?_
      refine Walks.pure ?_ (Border.Below.refl _)
      cases element <;> simp
    · exact Walks.pure rfl (Border.below_mild _)

theorem fields_succ : Walks seen all b .fresh (Syntax.fields (left + 1))
    (fun fs => b.add seen (fieldParts fs)) .mild := by
  unfold Syntax.fields
  refine Walks.look _ fun isClosed => Walks.look _ fun isEnd => ?_
  split
  · exact Walks.pure (Braces.add_nil b) (Border.below_mild _)
  · refine Walks.look _ fun l => Walks.fieldName.bind fun key => ?_
    have hvalue : Walks seen all b .ended (do
        if ← acceptSymbol .colon then Syntax.expression left
        else return Expr.variable key l) (fun e => b.add seen (exprParts e)) .ended := by
      refine Walks.taking (passable rfl .fresh) (h.expression b hb) ?_
      exact Walks.pure (Braces.add_nil b) (Border.Below.refl _)
    refine hvalue.bind fun value => Walks.taking (passable rfl .fresh) ?_ ?_
    · refine (h.fields _ (hb.add _)).bind fun rest => Walks.pure ?_ (Border.Below.refl _)
      simp
    · refine Walks.pure ?_ (Border.below_mild _)
      simp

theorem primary_succ : Walks seen all b .fresh (Syntax.primary (left + 1))
    (fun e => b.add seen (exprParts e)) .ended := by
  unfold Syntax.primary
  refine Walks.look _ fun l => Walks.acceptAtom ?_ fun e => ?_
  on_goal 2 => exact Walks.pure rfl (Border.Below.refl _)
  refine Walks.startsFunction hb (fun _ => rfl) (fun isAsync => ?_) ?_
  · refine (Walks.acceptName (Border.apart_below .apart)).bind fun x => ?_
    refine (h.functionRest b hb x isAsync).bind fun f => ?_
    exact Walks.pure rfl (Border.apart_below _)
  refine Walks.taking (passable rfl .fresh) ?_ ?_
  · refine (h.elements b hb _).bind fun items => ?_
    exact Walks.expecting (passable rfl .ended) _ (Walks.pure rfl (Border.Below.refl _))
  refine Walks.takingBrace (fun opening => ?_) ?_
  · have hfields := (h.fields _ (calm_open b opening)).mono (Border.apart_below _)
      (Border.Below.refl _)
    refine hfields.bind fun items => Walks.expectingBrace _ fun closing => ?_
    exact Walks.pure (close_block hb (fieldParts items) opening closing).symm
      (Border.apart_below _)
  refine Walks.taking (passable rfl .fresh) ?_ ?_
  · refine (h.expression b hb).bind fun e => ?_
    exact Walks.expecting (passable rfl .ended) _ (Walks.pure rfl (Border.Below.refl _))
  · exact Walks.look _ fun found => Walks.failAt _ _

theorem functionRest_succ (x : Option String) (isAsync : Bool) :
    Walks seen all { b with header := ! isAsync } .apart
      (Syntax.functionRest (left + 1) x isAsync) (fun f => b.add seen (functionParts f))
      .apart := by
  unfold Syntax.functionRest
  refine Walks.expecting (passable rfl .apart) _ (parameters_walks.bind fun params => ?_)
  refine Walks.expecting (passable rfl .apart) _ (Walks.opening _ fun opening => ?_)
  refine (h.statements _ (calm_open _ opening)).bind fun body => Walks.closing _ fun closing => ?_
  exact Walks.pure (close_function hb x params body isAsync opening closing).symm
    (Border.Below.refl _)

theorem declarators_succ (kind : DeclKind) : Walks seen all b .apart
    (Syntax.declarators (left + 1) kind) (fun ds => b.add seen (declaratorParts ds)) .ended := by
  unfold Syntax.declarators
  refine binder_walks.bind fun target => ?_
  have hvalue : Walks seen all b .apart (do
        if ← acceptSymbol .assign then return some (← Syntax.expression left)
        else return none) (fun value => b.add seen (optionalParts value)) .ended := by
    have hassign : Passable b .ended .fresh (.symbol .assign) := passable_operator rfl b
    refine Walks.taking (hassign.mono (Border.apart_below _)) ?_ ?_
    · exact (h.expression b hb).bind fun e => Walks.pure rfl (Border.Below.refl _)
    · exact Walks.pure (Braces.add_nil b) (Border.apart_below _)
  refine hvalue.bind fun value => ?_
  have hrest : Walks seen all (b.add seen (optionalParts value)) .ended (do
        if ← acceptSymbol .comma then
          return .mk target value :: (← Syntax.declarators left kind)
        else return [.mk target value]) (fun ds => b.add seen (declaratorParts ds)) .ended := by
    refine Walks.taking (passable rfl .apart) ?_ ?_
    · refine (h.declarators _ (hb.add _) kind).bind fun rest => ?_
      refine Walks.pure ?_ (Border.Below.refl _)
      cases value <;> simp
    · refine Walks.pure ?_ (Border.Below.refl _)
      cases value <;> simp
  refine iteInduction (motive := fun m => Walks seen all _ _ m _ _) (fun _ => ?_) fun _ => hrest
  refine Walks.look _ fun l => ?_
  have hfails : Walks seen all (b.add seen (optionalParts value)) .ended
      (Reader.failAt l .missingInitializer : Reader PUnit)
      (fun _ => b.add seen (optionalParts value)) .ended := Walks.failAt _ _
  exact hfails.bind fun _ => hrest

/-! ## Statements -/

theorem statements_succ : Walks seen all b .apart (Syntax.statements (left + 1))
    (fun stmts => b.add seen (parts stmts)) .apart := by
  unfold Syntax.statements
  refine Walks.look _ fun isClosed => Walks.look _ fun isEnd => ?_
  split
  · exact Walks.pure (Braces.add_nil b) (Border.Below.refl _)
  · refine (h.statement b hb).bind fun first => (h.statements _ (hb.add _)).bind fun rest => ?_
    exact Walks.pure (by simp) (Border.Below.refl _)

theorem body_succ : Walks seen all b .apart (Syntax.body (left + 1))
    (fun stmts => b.add seen (parts stmts)) .apart := by
  unfold Syntax.body
  refine Walks.takingBrace (fun opening => ?_) ?_
  · refine (h.statements _ (calm_open b opening)).bind fun list => ?_
    refine Walks.expectingBrace _ fun closing => ?_
    exact Walks.pure (close_block hb (parts list) opening closing).symm (Border.Below.refl _)
  · refine (h.statement b hb).bind fun stmt => Walks.pure ?_ (Border.Below.refl _)
    simp

theorem forLoop_succ (l : Location) : Walks seen all b .apart (Syntax.forLoop (left + 1) l)
    (fun stmt => b.add seen (stmtParts stmt)) .apart := by
  unfold Syntax.forLoop
  refine Walks.expecting (passable rfl .apart) _ (Walks.look _ fun startLoc => ?_)
  refine acceptDeclKind_takes.walks (passable_of_plain (by decide) _ .apart) ?_ fun kind => ?_
  · refine Walks.choice _ ?_ ?_
    · have hrest := h.forRest b hb l none
      rw [firstParts, Braces.add_nil] at hrest
      exact hrest.mono (Border.apart_below _) (Border.Below.refl _)
    · have hfirst := (h.expression b hb).mono (Border.apart_below .fresh) (Border.Below.refl _)
      exact hfirst.bind fun e => h.forRest b hb l (some (.expr e startLoc))
  · refine Walks.remembering fun saved last hsaved => ?_
    refine binder_walks.bind fun target => Walks.taking (passable rfl .fresh) ?_ ?_
    · refine (h.expression b hb).bind fun iterable => Walks.expecting (passable rfl .apart) _ ?_
      refine (h.body _ (hb.add _)).bind fun body => Walks.pure ?_ (Border.Below.refl _)
      simp
    · refine Walks.goingBack hsaved ?_
      exact (h.declarators b hb kind).bind fun list =>
        h.forRest b hb l (some (.declare kind list startLoc))

theorem forRest_succ (l : Location) (start : Option ForStart) :
    Walks seen all (b.add seen (firstParts start)) .ended (Syntax.forRest (left + 1) l start)
      (fun stmt => b.add seen (stmtParts stmt)) .apart := by
  unfold Syntax.forRest
  have hclause (b : Braces) (hb : b.Calm) (close : Symbol) : Walks seen all b .apart (do
        if ← seesSymbol close then return none
        else return some (← Syntax.expression left))
      (fun clause => b.add seen (optionalParts clause)) .ended := by
    refine Walks.choice _ ?_ ?_
    · exact Walks.pure (Braces.add_nil b) (Border.apart_below _)
    · have hclause := (h.expression b hb).mono (Border.apart_below .fresh) (Border.Below.refl _)
      exact hclause.bind fun e => Walks.pure rfl (Border.Below.refl _)
  have hstart : (b.add seen (firstParts start)).Calm := hb.add _
  refine Walks.expecting (passable_semicolon hstart .apart) _ ?_
  refine (hclause _ hstart _).bind fun condition => ?_
  refine Walks.expecting (passable_semicolon (hstart.add _) .apart) _ ?_
  refine (hclause _ (hstart.add _) _).bind fun step => Walks.expecting (passable rfl .apart) _ ?_
  refine (h.body _ ((hstart.add _).add _)).bind fun body => ?_
  refine Walks.pure ?_ (Border.Below.refl _)
  cases start <;> simp [firstParts]

theorem statement_succ : Walks seen all b .apart (Syntax.statement (left + 1))
    (fun stmt => b.add seen (stmtParts stmt)) .apart := by
  have hstart := (h.expression b hb).mono (Border.apart_below .fresh) (Border.Below.refl _)
  unfold Syntax.statement
  refine Walks.look _ fun l => Walks.taking (passable_semicolon hb .apart) ?_ ?_
  · exact Walks.pure (Braces.add_nil b) (Border.Below.refl _)
  refine Walks.startsFunction hb (fun _ => rfl) (fun isAsync => ?_) ?_
  · refine Walks.name.bind fun x => (h.functionRest b hb (some x) isAsync).bind fun f => ?_
    exact Walks.pure rfl (Border.Below.refl _)
  refine acceptDeclKind_takes.walks (passable_of_plain (by decide) _ .apart) ?_ fun kind => ?_
  on_goal 2 =>
    refine (h.declarators b hb kind).bind fun list => ?_
    exact Walks.ending (hb.add _) _ (Walks.pure rfl (Border.Below.refl _))
  refine Walks.taking (passable rfl .apart) ?_ ?_
  · refine Walks.look _ fun next => ?_
    have hvalue (isMissing : Bool) : Walks seen all b .apart (do
          if isMissing then return none else return some (← Syntax.expression left))
        (fun value => b.add seen (optionalParts value)) .ended := by
      split
      · exact Walks.pure (Braces.add_nil b) (Border.apart_below _)
      · exact hstart.bind fun e => Walks.pure rfl (Border.Below.refl _)
    refine (hvalue _).bind fun value => ?_
    exact Walks.ending (hb.add _) _ (Walks.pure rfl (Border.Below.refl _))
  refine Walks.taking (passable rfl .apart) ?_ ?_
  · refine Walks.expecting (passable rfl .fresh) _ ((h.expression b hb).bind fun condition => ?_)
    refine Walks.expecting (passable rfl .apart) _ ?_
    refine (h.body _ (hb.add _)).bind fun whenTrue => Walks.taking (passable rfl .apart) ?_ ?_
    · refine (h.body _ ((hb.add _).add _)).bind fun whenFalse => ?_
      exact Walks.pure (by simp) (Border.Below.refl _)
    · exact Walks.pure (by simp) (Border.Below.refl _)
  refine Walks.taking (passable rfl .apart) ?_ ?_
  · refine Walks.expecting (passable rfl .fresh) _ ((h.expression b hb).bind fun condition => ?_)
    refine Walks.expecting (passable rfl .apart) _ ?_
    refine (h.body _ (hb.add _)).bind fun body => Walks.pure ?_ (Border.Below.refl _)
    simp
  refine Walks.taking (passable rfl .apart) ?_ ?_
  · refine (h.body b hb).bind fun body => Walks.expecting (passable rfl .apart) _ ?_
    refine Walks.expecting (passable rfl .fresh) _ ?_
    refine (h.expression _ (hb.add _)).bind fun condition => ?_
    refine Walks.expecting (passable rfl .apart) _ ?_
    refine (Walks.accept (passable_semicolon ((hb.add _).add _) .apart)
      (Border.Below.refl _)).bind fun _ => Walks.pure ?_ (Border.Below.refl _)
    simp
  refine Walks.taking (passable rfl .apart) (h.forLoop b hb l) ?_
  refine Walks.taking (passable rfl .ended) ?_ ?_
  · exact Walks.ending hb _ (Walks.pure (Braces.add_nil b) (Border.Below.refl _))
  refine Walks.taking (passable rfl .ended) ?_ ?_
  · exact Walks.ending hb _ (Walks.pure (Braces.add_nil b) (Border.Below.refl _))
  refine Walks.taking (passable rfl .fresh) ?_ ?_
  · refine (h.expression b hb).bind fun value => ?_
    exact Walks.ending (hb.add _) _ (Walks.pure rfl (Border.Below.refl _))
  refine Walks.takingBrace (fun opening => ?_) ?_
  · refine (h.statements _ (calm_open b opening)).bind fun list => ?_
    refine Walks.expectingBrace _ fun closing => ?_
    exact Walks.pure (close_block hb (parts list) opening closing).symm (Border.Below.refl _)
  · refine hstart.bind fun e => ?_
    exact Walks.ending (hb.add _) _ (Walks.pure rfl (Border.Below.refl _))

end ReadsParts

/-- Whatever the bound, the parser leaves the marks of the parts that it reads. -/
theorem readsParts (seen : Location → Bool) (all : List Token) (left : Nat) :
    ReadsParts seen all left := by
  induction left with
  | zero =>
      constructor
      case construction =>
        rintro b hb input last e rest - - hread
        cases hread
      all_goals
        intros
        exact Walks.look _ fun l => Walks.failAt l _
  | succ left h =>
      exact {
        expression := fun b hb => h.expression_succ hb
        arrowFunction := fun b hb => h.arrowFunction_succ hb
        conditional := fun b hb => h.conditional_succ hb
        binary := fun b hb => h.binary_succ hb
        binaryRest := fun b hb => h.binaryRest_succ hb
        power := fun b hb => h.power_succ hb
        unary := fun b hb => h.unary_succ hb
        trailers := fun b hb => h.trailers_succ hb
        construction := fun b hb => h.construction_succ hb
        constructorPath := fun b hb => h.constructorPath_succ hb
        elements := fun b hb => h.elements_succ hb
        fields := fun b hb => h.fields_succ hb
        primary := fun b hb => h.primary_succ hb
        functionRest := fun b hb => h.functionRest_succ hb
        declarators := fun b hb => h.declarators_succ hb
        statements := fun b hb => h.statements_succ hb
        body := fun b hb => h.body_succ hb
        forLoop := fun b hb => h.forLoop_succ hb
        forRest := fun b hb => h.forRest_succ hb
        statement := fun b hb => h.statement_succ hb }

theorem programStatements_walks (hb : b.Calm) (depth left : Nat) :
    Walks seen all b .apart (programStatements depth left)
      (fun program => b.add seen (parts program)) .apart := by
  induction left generalizing b with
  | zero => exact Walks.look _ fun l => Walks.failAt l _
  | succ left ih =>
      unfold programStatements
      refine Walks.choice _ (Walks.pure (Braces.add_nil b) (Border.Below.refl _)) ?_
      refine ((readsParts seen all depth).statement b hb).bind fun first => ?_
      exact (ih (hb.add _)).bind fun rest => Walks.pure (by simp) (Border.Below.refl _)

/-- A program is read up to the end of input. -/
theorem atEnd_of_programStatements {depth left : Nat} {program : Program} {rest : Input}
    (h : programStatements depth left input = .ok (program, rest)) :
    rest.peek.kind = .endOfInput := by
  induction left generalizing input program with
  | zero => cases h
  | succ left ih =>
      change (if decide (input.peek.kind = .endOfInput) = true then pure []
        else statement depth >>= fun first => programStatements depth left >>= fun others =>
          pure (first :: others) : Reader Program) input = .ok (program, rest) at h
      split at h
      · rename_i hend
        cases h
        exact of_decide_eq_true hend
      · obtain ⟨first, input', -, hothers⟩ := Reader.bind_ok h
        obtain ⟨others, rest', hrest, hpure⟩ := Reader.bind_ok hothers
        cases hpure
        exact ih hrest

/-! ## Programs -/

theorem kind_ne_endOfInput {l : Location} {text : List Char} {ps : List Piece}
    (h : Cut l text ps) : ∀ p ∈ ps, p.token.kind ≠ .endOfInput := by
  induction h with
  | last => exact List.forall_mem_nil _
  | piece _ hfound _ ih => exact List.forall_mem_cons.mpr ⟨lexeme_ne_endOfInput hfound, ih⟩

theorem run_end (seen : Location → Bool) (b : Braces) (tokens : List Token) (l : Location) :
    b.run seen (tokens ++ [⟨.endOfInput, l⟩]) = b.run seen tokens := by
  induction tokens generalizing b with
  | nil => rfl
  | cons token rest ih =>
      have hnext : opensNext seen (rest ++ [⟨.endOfInput, l⟩]) = opensNext seen rest := by
        cases rest <;> rfl
      rw [List.cons_append, Braces.run, Braces.run, hnext, ih]

/-- A reader that has come to the end of input has taken all tokens before it. -/
theorem Walked.tokens_of_end {tokens : List Token} {lend : Location} {input : Input}
    (hend : ∀ token ∈ tokens, token.kind ≠ .endOfInput)
    (h : Walked seen (tokens ++ [⟨.endOfInput, lend⟩]) last b input.tokens)
    (hpeek : input.peek.kind = .endOfInput) :
    b = ({} : Braces).run seen tokens ∧ ∃ l, List.IsChain Apart (⟨.endOfInput, l⟩ :: tokens) := by
  obtain ⟨l, front, hall, hfront, hchain, -⟩ := h.front
  have hsplit : tokens = front ∧ [⟨.endOfInput, lend⟩] = input.tokens := by
    rcases List.append_eq_append_iff.mp hall with ⟨more, hmore, hrest⟩ | ⟨more, hmore, hrest⟩
    · cases more with
      | nil => exact ⟨by simpa using hmore.symm, hrest⟩
      | cons token more =>
          obtain rfl : (⟨.endOfInput, lend⟩ : Token) = token := List.head_eq_of_cons_eq hrest
          refine absurd rfl (hfront ⟨.endOfInput, lend⟩ ?_)
          rw [hmore]
          simp
    · cases more with
      | nil => exact ⟨by simpa using hmore, hrest.symm⟩
      | cons token more =>
          have htoken : token.kind = .endOfInput := by
            rw [← hpeek, Input.peek, hrest]
            rfl
          refine absurd htoken (hend token ?_)
          rw [hmore]
          simp
  obtain ⟨rfl, hrest⟩ := hsplit
  refine ⟨?_, l, hchain⟩
  rw [← run_end seen {} tokens lend, h.run_eq, ← hrest]
  rfl

theorem read_of_parseTokens {tokens : List Token} {program : Program}
    (h : parseTokens tokens = .ok program) : ∃ depth left start rest,
      programStatements depth left ⟨start, tokens⟩ = .ok (program, rest) := by
  obtain ⟨depth, left, start, hmap⟩ : ∃ depth left start,
      (programStatements depth left ⟨start, tokens⟩).map (·.1) = .ok program := ⟨_, _, _, h⟩
  refine ⟨depth, left, start, ?_⟩
  cases hread : programStatements depth left ⟨start, tokens⟩ with
  | error e =>
      rw [hread] at hmap
      cases hmap
  | ok read =>
      rw [hread] at hmap
      cases hmap
      exact ⟨read.2, rfl⟩

/-- The tokens of a parsed program leave the marks of its parts and no brace open, and the scan
can tell any two neighbours among them apart. -/
theorem marks_of_parse {source : String} {program : Program} (seen : Location → Bool)
    (h : parse source = .ok program) :
    Cut ⟨1, 1⟩ source.toList (pieces source) ∧
      ({} : Braces).run seen ((pieces source).map Piece.token) =
        ({} : Braces).add seen (parts program) ∧
      ∃ l, List.IsChain Apart (⟨.endOfInput, l⟩ :: (pieces source).map Piece.token) := by
  unfold parse at h
  cases htokens : tokenize source with
  | error e =>
      rw [htokens] at h
      cases h
  | ok tokens =>
      rw [htokens] at h
      obtain ⟨hcut, lend, rfl⟩ := cut_pieces htokens
      have hends : ∀ token ∈ (pieces source).map Piece.token, token.kind ≠ .endOfInput :=
        List.forall_mem_map.mpr (kind_ne_endOfInput hcut)
      obtain ⟨depth, left, start, rest, hread⟩ := read_of_parseTokens h
      have hat : Input.At seen ((pieces source).map Piece.token ++ [⟨.endOfInput, lend⟩]) {}
          .apart ⟨start, (pieces source).map Piece.token ++ [⟨.endOfInput, lend⟩]⟩
          ⟨.endOfInput, start⟩ :=
        ⟨.start start, rfl, Border.holds_of_leaves rfl _⟩
      obtain ⟨last, hat'⟩ := programStatements_walks ⟨rfl, rfl⟩ _ _ _ _ program rest hat hread
      have htaken := hat'.walked.tokens_of_end hends (atEnd_of_programStatements hread)
      exact ⟨hcut, htaken.1.symm, htaken.2⟩

end StepTrace.Syntax
