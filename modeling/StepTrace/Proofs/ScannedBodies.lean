import Mathlib.Data.List.Nodup
import StepTrace.Proofs.CodeLines
import StepTrace.Proofs.TokenWalk

/-!
# Bodies in the scan

The scan counts braces in the text as the walk over the tokens does, so at the end of a line it
knows which bodies that cannot be suspended are still open. Every such body leaves a mark when
it closes: a line of code is one of a body exactly if the walk leaves a mark whose braces stand
on different lines around it (`bodySeen_follows`).

* `inSight`: whether a brace can be seen from the arrow before it.
* `Reads`: the scan agrees with the walk over the tokens.
* `BodySeen`: what is known of the scan between two pieces.
-/

namespace StepTrace.Capture

open Syntax

variable {b : Braces} {s : Scan} {n : Nat} {o c : Location}

/-! ## Braces in sight -/

/-- Only blanks of its line stand before the token at the place. -/
def inSight (ps : List Piece) (l : Location) : Bool :=
  ps.any fun p => p.token.loc = l && p.gap.all isSpace

/-- No other piece stands at the place. -/
theorem inSight_piece {ps : List Piece} {p : Piece}
    (hps : ps.Pairwise fun p q => p.token.loc.Before q.token.loc) (hp : p ∈ ps) :
    inSight ps p.token.loc = p.gap.all isSpace := by
  have hnodup : (ps.map fun p => p.token.loc).Nodup :=
    List.pairwise_map.mpr (hps.imp Location.Before.ne)
  rw [Bool.eq_iff_iff, inSight, List.any_eq_true]
  constructor
  · rintro ⟨q, hq, hqp⟩
    simp only [Bool.and_eq_true, decide_eq_true_eq] at hqp
    rw [List.inj_on_of_nodup_map hnodup hp hq hqp.1.symm]
    exact hqp.2
  · intro hgap
    exact ⟨p, hp, by simp [hgap]⟩

/-- The walk sees the blocks of arrows that the scan sees. -/
theorem opensNext_inSight {all ps : List Piece}
    (hall : all.Pairwise fun p q => p.token.loc.Before q.token.loc) (hps : ∀ p ∈ ps, p ∈ all) :
    opensNext (inSight all) (ps.map Piece.token) = opensBlockAt ps := by
  cases ps with
  | nil => rfl
  | cons p ps =>
      change (decide (p.token.kind = .symbol .leftBrace) && inSight all p.token.loc) = _
      rw [inSight_piece hall (hps p List.mem_cons_self), opensBlockAt]

/-! ## Open bodies -/

/-- The bodies that cannot be suspended among the open braces, each with its depth. -/
def openBodies : List (Option Location) → List (Nat × Location)
  | [] => []
  | some l :: rest => (rest.length + 1, l) :: openBodies rest
  | none :: rest => openBodies rest

theorem depth_le {opened : List (Option Location)} {body : Nat × Location}
    (h : body ∈ openBodies opened) : body.1 ≤ opened.length := by
  induction opened with
  | nil => cases h
  | cons e rest ih =>
      cases e with
      | none => exact (ih h).trans (Nat.le_succ _)
      | some l =>
          rcases List.mem_cons.mp h with rfl | hrest
          · exact Nat.le_refl _
          · exact (ih hrest).trans (Nat.le_succ _)

/-- Exactly the places of open bodies are among the open braces. -/
theorem mem_openBodies {opened : List (Option Location)} :
    some o ∈ opened ↔ ∃ depth, (depth, o) ∈ openBodies opened := by
  induction opened with
  | nil => simp [openBodies]
  | cons e rest ih =>
      cases e with
      | none => simp [openBodies, ih]
      | some l =>
          simp only [openBodies, List.mem_cons, Option.some.injEq, Prod.mk.injEq, ih]
          constructor
          · rintro (rfl | ⟨depth, hdepth⟩)
            · exact ⟨_, Or.inl ⟨rfl, rfl⟩⟩
            · exact ⟨depth, Or.inr hdepth⟩
          · rintro ⟨depth, ⟨-, rfl⟩ | hdepth⟩
            · exact Or.inl rfl
            · exact Or.inr ⟨depth, hdepth⟩

/-! ## Marks of bodies -/

/-- A token opens a brace where it stands, or closes the innermost one and leaves the mark of its
body, or leaves the braces and the marks of bodies as they are. -/
theorem step_cases (b : Braces) (token : Token) (opens : Bool) :
    ((b.step token opens).opened = b.opened ∧
      ∀ o c, .body o c ∈ (b.step token opens).done ↔ .body o c ∈ b.done) ∨
    (∃ e, (b.step token opens).opened = e :: b.opened ∧ (∀ o ∈ e, o = token.loc) ∧
      (b.step token opens).done = b.done) ∨
    ((b.step token opens).opened = b.opened.tail ∧
      ∀ o c, .body o c ∈ (b.step token opens).done ↔
        .body o c ∈ b.done ∨ (b.opened.head? = some (some o) ∧ c = token.loc)) := by
  unfold Braces.step
  split
  case h_4 =>
    refine Or.inr (Or.inl ⟨_, rfl, ?_, rfl⟩)
    split
    · rintro o ⟨⟩
      rfl
    · rintro o ⟨⟩
  case h_5 =>
    refine Or.inr (Or.inr ⟨rfl, fun o c => ?_⟩)
    rw [Braces.close, List.mem_append]
    refine or_congr_right ?_
    rcases b.opened with _ | ⟨_ | first, rest⟩
    · simp
    · simp
    · simp [eq_comm]
  all_goals exact Or.inl ⟨rfl, fun o c => by simp⟩

section Run

variable {seen : Location → Bool} {tokens : List Token}

theorem body_mem_run (h : .body o c ∈ b.done) : .body o c ∈ (b.run seen tokens).done := by
  induction tokens generalizing b with
  | nil => exact h
  | cons token rest ih =>
      refine ih ?_
      rcases step_cases b token (opensNext seen rest) with
        ⟨-, hdone⟩ | ⟨e, -, -, hdone⟩ | ⟨-, hdone⟩
      · exact (hdone o c).mpr h
      · rwa [hdone]
      · exact (hdone o c).mpr (Or.inl h)

/-- Where no brace stays open, every open body is closed by one of the tokens. -/
theorem closed_of_run (ho : some o ∈ b.opened) (hend : (b.run seen tokens).opened = []) :
    ∃ token ∈ tokens, .body o token.loc ∈ (b.run seen tokens).done := by
  induction tokens generalizing b with
  | nil =>
      change b.opened = [] at hend
      rw [hend] at ho
      cases ho
  | cons token rest ih =>
      have hlater (hstep : some o ∈ (b.step token (opensNext seen rest)).opened) :
          ∃ token' ∈ token :: rest, .body o token'.loc ∈ (b.run seen (token :: rest)).done := by
        obtain ⟨token', htoken', hmark⟩ := ih hstep hend
        exact ⟨token', List.mem_cons_of_mem _ htoken', hmark⟩
      rcases step_cases b token (opensNext seen rest) with
        ⟨hopened, -⟩ | ⟨e, hopened, -, -⟩ | ⟨hopened, hdone⟩
      · exact hlater (by rwa [hopened])
      · exact hlater (by rw [hopened]; exact List.mem_cons_of_mem _ ho)
      · obtain ⟨e, others, heq⟩ := List.exists_cons_of_ne_nil (List.ne_nil_of_mem ho)
        rw [heq] at ho hopened
        rcases List.mem_cons.mp ho with rfl | hothers
        · refine ⟨token, List.mem_cons_self, ?_⟩
          rw [Braces.run]
          exact body_mem_run ((hdone o _).mpr (Or.inr ⟨by rw [heq]; rfl, rfl⟩))
        · exact hlater (by rwa [hopened])

/-- A marked body was closed before, or one of the tokens closes it, or one of them opens it. -/
theorem body_of_run (h : .body o c ∈ (b.run seen tokens).done) :
    .body o c ∈ b.done ∨ (some o ∈ b.opened ∧ ∃ token ∈ tokens, token.loc = c) ∨
      ∃ token ∈ tokens, token.loc = o := by
  induction tokens generalizing b with
  | nil => exact Or.inl h
  | cons token rest ih =>
      have hfirst : token ∈ token :: rest := List.mem_cons_self
      have hlater {l : Location} (hl : ∃ token' ∈ rest, token'.loc = l) :
          ∃ token' ∈ token :: rest, token'.loc = l := by
        obtain ⟨token', htoken', hloc⟩ := hl
        exact ⟨token', List.mem_cons_of_mem _ htoken', hloc⟩
      have hrest := ih h
      rcases step_cases b token (opensNext seen rest) with
        ⟨hopened, hdone⟩ | ⟨e, hopened, he, hdone⟩ | ⟨hopened, hdone⟩
      · rw [hopened, hdone] at hrest
        exact hrest.imp_right (Or.imp (And.imp_right hlater) hlater)
      · rw [hopened, hdone, List.mem_cons] at hrest
        rcases hrest with hold | ⟨heq | ho, hc⟩ | ho
        · exact Or.inl hold
        · exact Or.inr (Or.inr ⟨token, hfirst, (he o heq.symm).symm⟩)
        · exact Or.inr (Or.inl ⟨ho, hlater hc⟩)
        · exact Or.inr (Or.inr (hlater ho))
      · rw [hopened, hdone] at hrest
        rcases hrest with (hold | ⟨hhead, rfl⟩) | ⟨ho, hc⟩ | ho
        · exact Or.inl hold
        · exact Or.inr (Or.inl ⟨List.mem_of_mem_head? hhead, token, hfirst, rfl⟩)
        · exact Or.inr (Or.inl ⟨List.mem_of_mem_tail ho, hlater hc⟩)
        · exact Or.inr (Or.inr (hlater ho))

end Run

/-! ## The scan and the walk -/

/-- The scan agrees with the walk over the tokens: it knows the depth, the bodies that are open
and what waits for a brace, and of the open bodies those that the line opened. -/
structure Reads (n : Nat) (b : Braces) (s : Scan) : Prop where
  depth : s.depth = b.opened.length
  plainBodies : s.plainBodies = (openBodies b.opened).map Prod.fst
  header : s.headerPending = b.header
  isAsync : s.asyncPending = b.isAsync
  opened : ∀ body ∈ openBodies b.opened, body.1 ∈ s.opened ↔ body.2.line = n

/-- What the scan is inside of and whether it saw a comment do not matter. -/
theorem Reads.of_bare {s' : Scan} (h : Reads n b s) (hbare : s'.bare = s.bare) :
    Reads n b s' := by
  obtain ⟨hdepth, hplain, hheader, hasync, hopened⟩ := h
  cases s
  cases s'
  cases hbare
  exact ⟨hdepth, hplain, hheader, hasync, hopened⟩

theorem Reads.open (h : Reads n b s) (l : Location) (hl : l.line = n) :
    Reads n (b.open l) s.openBrace := by
  obtain ⟨hdepth, hplain, hheader, -, hopened⟩ := h
  have hdepth' : s.depth + 1 = b.opened.length + 1 := congrArg Nat.succ hdepth
  rw [Braces.open]
  cases hb : b.header with
  | false =>
      rw [hb] at hheader
      have hbrace : s.openBrace = { s with depth := s.depth + 1, asyncPending := false } := by
        simp [Scan.openBrace, hheader]
      rw [hbrace]
      exact ⟨hdepth', hplain, hheader, rfl, hopened⟩
  | true =>
      rw [hb] at hheader
      have hbrace : s.openBrace = { s with
          depth := s.depth + 1, headerPending := false, asyncPending := false
          plainBodies := (s.depth + 1) :: s.plainBodies
          opened := (s.depth + 1) :: s.opened } := by
        simp [Scan.openBrace, hheader]
      rw [hbrace]
      refine ⟨hdepth', congrArg₂ List.cons hdepth' hplain, rfl, rfl, ?_⟩
      -- the new body is deeper than all others
      refine List.forall_mem_cons.mpr ⟨?_, fun body hbody => ?_⟩
      · simp [hdepth, hl]
      · have hdeep := depth_le hbody
        have hne : body.1 ≠ s.depth + 1 := by omega
        simp only [List.mem_cons, hne, false_or]
        exact hopened body hbody

theorem Reads.close (h : Reads n b s) (l : Location) : Reads n (b.close l) s.closeBrace := by
  obtain ⟨hdepth, hplain, hheader, -, hopened⟩ := h
  refine ⟨?_, ?_, hheader, rfl, ?_⟩
  · rw [Scan.closeBrace, Braces.close, List.length_tail, hdepth]
  · rw [Scan.closeBrace, Braces.close, hplain, hdepth]
    rcases hb : b.opened with _ | ⟨_ | first, rest⟩
    · rfl
    · -- a body further out is less deep than the brace
      have hne : ((openBodies rest).map Prod.fst).head? ≠ some (rest.length + 1) := by
        intro hhead
        obtain ⟨body, hbody, hdeep⟩ := List.mem_map.mp (List.mem_of_mem_head? hhead)
        have := depth_le hbody
        omega
      exact if_neg hne
    · exact if_pos rfl
  · intro body hbody
    refine hopened body ?_
    rw [Braces.close] at hbody
    rcases hb : b.opened with _ | ⟨_ | first, rest⟩
    · rwa [hb] at hbody
    · rwa [hb] at hbody
    · rw [hb] at hbody
      exact List.mem_cons_of_mem _ hbody

/-- A token does to the scan what it does to the walk. -/
theorem Reads.token (h : Reads n b s) {token : Token} (hline : token.loc.line = n)
    (opens : Bool) : Reads n (b.step token opens) (s.token token.kind opens) := by
  obtain ⟨hdepth, hplain, hheader, hasync, hopened⟩ := h
  obtain ⟨kind, l⟩ := token
  unfold Braces.step Scan.token
  cases kind with
  | keyword k =>
      cases k
      case asyncKw => exact ⟨hdepth, hplain, hheader, rfl, hopened⟩
      case functionKw => exact ⟨hdepth, hplain, by simp [hheader, hasync], rfl, hopened⟩
      all_goals exact ⟨hdepth, hplain, hheader, hasync, hopened⟩
  | symbol m =>
      cases m
      case leftBrace => exact Reads.open ⟨hdepth, hplain, hheader, hasync, hopened⟩ l hline
      case rightBrace => exact Reads.close ⟨hdepth, hplain, hheader, hasync, hopened⟩ l
      case semicolon => exact ⟨hdepth, hplain, hheader, rfl, hopened⟩
      case arrow => exact ⟨hdepth, hplain, by simp [hheader, hasync], rfl, hopened⟩
      all_goals exact ⟨hdepth, hplain, hheader, hasync, hopened⟩
  | _ => exact ⟨hdepth, hplain, hheader, hasync, hopened⟩

/-! ## From piece to piece -/

/-- The line is one of those of a marked body with braces on different lines. -/
def Marked (marks : List Mark) (n : Nat) : Prop :=
  ∃ first final, .body first final ∈ marks ∧ first.line ≠ final.line ∧ first.line ≤ n ∧
    n ≤ final.line

/-- Behind a token and before some pieces the scan agrees with a walk that ends with the marks;
the bodies open at the start of the line are those whose marks begin before it and do not end
before it. -/
structure BodySeen (all : List Piece) (marks : List Mark) (prev : Token) (ps : List Piece) (n : Nat)
    (before s : Scan) (b : Braces) : Prop where
  reads : Reads n b s
  entered : before.plainBodies ≠ [] ↔ ∃ o c, .body o c ∈ marks ∧ o.line < n ∧ n ≤ c.line
  done : (b.run (inSight all) (ps.map Piece.token)).done = marks
  closed : (b.run (inSight all) (ps.map Piece.token)).opened = []
  apart : List.IsChain Apart (prev :: ps.map Piece.token)
  pieces : ∀ p ∈ ps, p ∈ all
  ordered : ps.Pairwise fun p q => p.line ≤ q.line
  ahead : ∀ p ∈ ps, n ≤ p.line
  openedBefore : ∀ o, some o ∈ b.opened → o.line ≤ n
  closedBefore : ∀ o c, .body o c ∈ b.done → c.line ≤ n

section BodySeen

variable {all ps : List Piece} {marks : List Mark} {prev : Token} {before : Scan}

/-- In front of the first line nothing is open. -/
theorem BodySeen.start (hclosed : (({} : Braces).run (inSight ps) (ps.map Piece.token)).opened = [])
    (hapart : List.IsChain Apart (prev :: ps.map Piece.token))
    (hordered : ps.Pairwise fun p q => p.line ≤ q.line) (hahead : ∀ p ∈ ps, 1 ≤ p.line) :
    BodySeen ps (({} : Braces).run (inSight ps) (ps.map Piece.token)).done prev ps 1 {} {} {} := by
  refine ⟨⟨rfl, rfl, rfl, rfl, nofun⟩, ⟨fun hne => absurd rfl hne, ?_⟩, rfl, hclosed, hapart,
    fun p hp => hp, hordered, hahead, nofun, nofun⟩
  rintro ⟨o, c, hmark, hfirst, -⟩
  rcases body_of_run hmark with hdone | ⟨ho, -⟩ | ⟨token, htoken, rfl⟩
  · cases hdone
  · cases ho
  · obtain ⟨p, hp, rfl⟩ := List.mem_map.mp htoken
    exact absurd (hahead p hp) (Nat.not_le_of_lt hfirst)

/-- At the end of a line those bodies are open whose marks begin before it and end behind it. -/
theorem BodySeen.open_iff (h : BodySeen all marks prev ps n before s b)
    (hbehind : ∀ p ∈ ps, n < p.line) (o : Location) :
    some o ∈ b.opened ↔ ∃ c, .body o c ∈ marks ∧ o.line ≤ n ∧ n < c.line := by
  have hlater : ∀ token ∈ ps.map Piece.token, n < token.loc.line :=
    List.forall_mem_map.mpr hbehind
  constructor
  · intro ho
    obtain ⟨token, htoken, hmark⟩ := closed_of_run ho h.closed
    rw [h.done] at hmark
    exact ⟨token.loc, hmark, h.openedBefore o ho, hlater token htoken⟩
  · rintro ⟨c, hmark, hfirst, hlast⟩
    rw [← h.done] at hmark
    rcases body_of_run hmark with hdone | ⟨ho, -⟩ | ⟨token, htoken, rfl⟩
    · exact absurd (h.closedBefore o c hdone) (Nat.not_le_of_lt hlast)
    · exact ho
    · exact absurd hfirst (Nat.not_le_of_lt (hlater token htoken))

theorem kindOf_nonSuspending {before s : Scan} (hcode : s.sawCode = true) :
    kindOf before s = .nonSuspendingBody ↔
      before.plainBodies ≠ [] ∨ ∃ depth ∈ s.opened, depth ∈ s.plainBodies := by
  have hinside : (! before.plainBodies.isEmpty || s.opened.any s.plainBodies.contains) = true ↔
      before.plainBodies ≠ [] ∨ ∃ depth ∈ s.opened, depth ∈ s.plainBodies := by
    simp
  rw [kindOf, if_pos hcode, ← hinside]
  split <;> simp_all

/-- The line opened a body that is still open. -/
theorem Reads.opened_iff (h : Reads n b s) :
    (∃ depth ∈ s.opened, depth ∈ s.plainBodies) ↔ ∃ o, some o ∈ b.opened ∧ o.line = n := by
  rw [h.plainBodies]
  constructor
  · rintro ⟨depth, hopened, hdepth⟩
    obtain ⟨body, hbody, rfl⟩ := List.mem_map.mp hdepth
    exact ⟨body.2, mem_openBodies.mpr ⟨body.1, hbody⟩, (h.opened body hbody).mp hopened⟩
  · rintro ⟨o, ho, hline⟩
    obtain ⟨depth, hbody⟩ := mem_openBodies.mp ho
    exact ⟨depth, (h.opened _ hbody).mpr hline, List.mem_map_of_mem hbody⟩

theorem Reads.plainBodies_ne_nil (h : Reads n b s) :
    s.plainBodies ≠ [] ↔ ∃ o, some o ∈ b.opened := by
  rw [h.plainBodies, ne_eq, List.map_eq_nil_iff]
  constructor
  · intro hne
    obtain ⟨body, hbody⟩ := List.exists_mem_of_ne_nil _ hne
    exact ⟨body.2, mem_openBodies.mpr ⟨body.1, hbody⟩⟩
  · rintro ⟨o, ho⟩
    obtain ⟨depth, hbody⟩ := mem_openBodies.mp ho
    exact List.ne_nil_of_mem hbody

/-- At the end of a line of code its kind tells whether it is one of a marked body. -/
theorem BodySeen.right (h : BodySeen all marks prev ps n before s b)
    (hbehind : ∀ p ∈ ps, n < p.line) (hcode : s.sawCode = true) :
    kindOf before s = .nonSuspendingBody ↔ Marked marks n := by
  rw [kindOf_nonSuspending hcode, h.entered, h.reads.opened_iff]
  simp only [h.open_iff hbehind]
  constructor
  · rintro (⟨o, c, hmark, hfirst, hlast⟩ | ⟨o, ⟨c, hmark, -, hlast⟩, rfl⟩)
    · exact ⟨o, c, hmark, by omega, hfirst.le, hlast⟩
    · exact ⟨o, c, hmark, hlast.ne, Nat.le_refl _, hlast.le⟩
  · rintro ⟨o, c, hmark, hne, hfirst, hlast⟩
    rcases hfirst.lt_or_eq with hlt | rfl
    · exact Or.inl ⟨o, c, hmark, hlt, hlast⟩
    · exact Or.inr ⟨o, ⟨c, hmark, Nat.le_refl _, by omega⟩, rfl⟩

theorem BodySeen.nextLine (h : BodySeen all marks prev ps n before s b)
    (hbehind : ∀ p ∈ ps, n < p.line) :
    BodySeen all marks prev ps (n + 1) s.nextLine s.nextLine b := by
  refine { h with
    reads := { h.reads with opened := ?_ }
    entered := ?_
    ahead := hbehind
    openedBefore := fun o ho => (h.openedBefore o ho).trans (Nat.le_succ n)
    closedBefore := fun o c hmark => (h.closedBefore o c hmark).trans (Nat.le_succ n) }
  · intro body hbody
    have hline := h.openedBefore body.2 (mem_openBodies.mpr ⟨body.1, hbody⟩)
    have hne : body.2.line ≠ n + 1 := by omega
    simp [Scan.nextLine, hne]
  · change s.plainBodies ≠ [] ↔ _
    rw [h.reads.plainBodies_ne_nil]
    simp only [h.open_iff hbehind, Nat.lt_succ_iff, Nat.succ_le_iff]

theorem BodySeen.piece {p : Piece} {s' : Scan}
    (hall : all.Pairwise fun p q => p.token.loc.Before q.token.loc)
    (h : BodySeen all marks prev (p :: ps) p.line before s b)
    (heffect : Apart prev p.token → (∀ q ∈ ps.head?, Apart p.token q.token) → s'.bare =
      (({ s with sawCode := true } : Scan).token p.token.kind (opensBlockAt ps)).bare) :
    BodySeen all marks p.token ps p.line before s'
      (b.step p.token (opensNext (inSight all) (ps.map Piece.token))) := by
  obtain ⟨hprev, hapart⟩ := List.isChain_cons_cons.mp h.apart
  obtain ⟨hfirst, hordered⟩ := List.pairwise_cons.mp h.ordered
  have hpieces : ∀ q ∈ ps, q ∈ all := fun q hq => h.pieces q (List.mem_cons_of_mem _ hq)
  have hnext : ∀ q ∈ ps.head?, Apart p.token q.token := by
    cases ps with
    | nil => rintro q ⟨⟩
    | cons q ps =>
        rintro _ ⟨⟩
        exact (List.isChain_cons_cons.mp hapart).1
  have hseen := opensNext_inSight hall hpieces
  have hreads : Reads p.line b { s with sawCode := true } := { h.reads with }
  refine ⟨(hreads.token rfl _).of_bare ?_, h.entered, h.done, h.closed, hapart, hpieces, hordered,
    hfirst, fun o ho => ?_, fun o c hmark => ?_⟩
  · rw [hseen]
    exact heffect hprev hnext
  · rcases step_cases b p.token (opensNext (inSight all) (ps.map Piece.token)) with
      ⟨hopened, -⟩ | ⟨e, hopened, he, -⟩ | ⟨hopened, -⟩
    · rw [hopened] at ho
      exact h.openedBefore o ho
    · rw [hopened] at ho
      rcases List.mem_cons.mp ho with heq | ho
      · rw [he o heq.symm]
        exact Nat.le_refl _
      · exact h.openedBefore o ho
    · rw [hopened] at ho
      exact h.openedBefore o (List.mem_of_mem_tail ho)
  · rcases step_cases b p.token (opensNext (inSight all) (ps.map Piece.token)) with
      ⟨-, hdone⟩ | ⟨e, -, -, hdone⟩ | ⟨-, hdone⟩
    · exact h.closedBefore o c ((hdone o c).mp hmark)
    · rw [hdone] at hmark
      exact h.closedBefore o c hmark
    · rcases (hdone o c).mp hmark with hmark | ⟨-, rfl⟩
      · exact h.closedBefore o c hmark
      · exact Nat.le_refl _

/-- Every line of code is marked as one of a body exactly if it is one. -/
theorem bodySeen_follows (marks : List Mark)
    (hall : all.Pairwise fun p q => p.token.loc.Before q.token.loc) :
    Follows (fun n kind => kind.HoldsCode → (kind = .nonSuspendingBody ↔ Marked marks n))
      fun prev ps n before s => ∃ b, BodySeen all marks prev ps n before s b := by
  constructor
  · rintro prev ps n before s s' ⟨b, h⟩ hbare
    exact ⟨b, { h with reads := h.reads.of_bare hbare }⟩
  · rintro prev ps n before s ⟨b, h⟩ hnext
    have hbehind := behind_of_head h.ordered hnext
    exact ⟨fun hcode => h.right hbehind ((holdsCode_kindOf before s).mp hcode),
      b, h.nextLine hbehind⟩
  · rintro prev p ps before s s' ⟨b, h⟩ - heffect
    exact ⟨_, h.piece hall heffect⟩

end BodySeen

end StepTrace.Capture
