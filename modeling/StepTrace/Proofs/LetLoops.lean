import StepTrace.Eval.Program
import StepTrace.Proofs.Ends

/-!
# Loops over variables declared with `let`

A run of such a loop enters a block, carries out the declaration there, and then goes round: the
condition, the body and, if the body does not end the loop, the exchange of the block for a new one
and the last clause. How far a run has come is `LetLoop.Arrives`; what the statement does as a whole
is to arrive somewhere and to close the loop from there (`LetLoop.mayEnd_iff`).
-/

namespace StepTrace

open Syntax

/-- A loop whose initializer declares names with `let`. -/
structure LetLoop where
  declarators : List Declarator
  start : Location
  condition : Option Expr
  step : Option Expr
  body : List Stmt
  loc : Location

/-- A round in which the body has ended: the states in which it began and ended. -/
structure Round where
  begun : State
  ended : State

namespace LetLoop

variable (loop : LetLoop) (on : Setting)

/-- The loop as a statement. -/
def stmt : Stmt :=
  .for (some (.declare .letDecl loop.declarators loop.start)) loop.condition loop.step loop.body
    loop.loc

/-- The names that the initializer declares. -/
def names : List String :=
  loop.declarators.flatMap Declarator.names

/-- The initializer. -/
def declare : Eval Unit :=
  execDeclarators on .letDecl loop.start loop.declarators

/-- The condition, which holds if there is none. -/
def test : Eval Bool :=
  match loop.condition with
  | some e => evalCondition on e
  | none => pure true

/-- The body, in a block of its own. -/
def round : Eval Completion :=
  execBlock on loop.body

/-- The last clause, which nothing is done for if there is none. -/
def increment : Eval Unit :=
  match loop.step with
  | some e => do let _ ← evalExpr on e
  | none => pure ()

/-- So many rounds at most, from the condition of the next one on. -/
def goOn (bound : Nat) : Eval Completion :=
  Eval.rounds (loop.test on) (loop.round on) (execStep on loop.names loop.step) bound

/-- A run of the loop that begins in state `s` has had the rounds, each of which has gone over to
the next one, and is about to test the condition in the last state. -/
inductive Arrives (s : State) : List Round → State → Prop
  | declared {t : State}
    (h : (loop.declare on (s.changeEnv Environment.enterBlock)).MayEnd () t) : Arrives s [] t
  | round {rounds : List Round} {t b e t' : State} {c : Completion} (h : Arrives s rounds t)
    (htest : (loop.test on t).MayEnd true b) (hbody : (loop.round on b).MayEnd c e)
    (hgoesOn : c.endsLoop? = none)
    (hstep : (loop.increment on (e.changeEnv (nextRound loop.names))).MayEnd () t') :
    Arrives s (rounds ++ [⟨b, e⟩]) t'

/-- From before a condition, the loop comes to its end: the condition fails, or it holds and the
body ends the loop. -/
inductive Ends (t : State) : Completion → State → Prop
  | failed {left : State} (h : (loop.test on t).MayEnd false left) : Ends t .normal left
  | ended {b left : State} {c completion : Completion} (htest : (loop.test on t).MayEnd true b)
    (hbody : (loop.round on b).MayEnd c left) (hends : c.endsLoop? = some completion) :
    Ends t completion left

variable {loop on} {s t t' left : State} {c : Completion} {bound : Nat}

theorem stmt_eq : execStmt on loop.stmt = Eval.block (do
    loop.declare on
    loop.goOn on on.rounds) := by
  unfold stmt execStmt
  rfl

theorem execStep_eq (h : loop.names ≠ []) : execStep on loop.names loop.step = (do
    Eval.changeEnv (nextRound loop.names)
    loop.increment on) := by
  have hsome : (! loop.names.isEmpty) = true := by simp [h]
  unfold execStep increment
  rewrite [if_pos hsome]
  rfl

/-- With another round to go, the loop comes to its end at once or goes round. -/
theorem mayEnd_goOn_succ (hnames : loop.names ≠ []) :
    (loop.goOn on (bound + 1) t).MayEnd c left ↔ loop.Ends on t c left ∨
      ∃ b e c' t', (loop.test on t).MayEnd true b ∧ (loop.round on b).MayEnd c' e ∧
        c'.endsLoop? = none ∧
        (loop.increment on (e.changeEnv (nextRound loop.names))).MayEnd () t' ∧
        (loop.goOn on bound t').MayEnd c left := by
  unfold goOn
  rw [Eval.rounds, Process.mayEnd_bind, execStep_eq hnames]
  constructor
  · rintro ⟨goesOn, b, htest, hrest⟩
    cases goesOn with
    | false =>
        obtain ⟨rfl, rfl⟩ := Process.mayEnd_done.mp hrest
        exact .inl (.failed htest)
    | true =>
        obtain ⟨c', e, hbody, hrest⟩ := Process.mayEnd_bind.mp hrest
        cases hends : c'.endsLoop? with
        | some completion =>
            simp only [hends] at hrest
            obtain ⟨rfl, rfl⟩ := Process.mayEnd_done.mp hrest
            exact .inl (.ended htest hbody hends)
        | none =>
            simp only [hends] at hrest
            obtain ⟨_, t', hstep, hrest⟩ := Process.mayEnd_bind.mp hrest
            obtain ⟨_, next, hnext, hincrement⟩ := Process.mayEnd_bind.mp hstep
            obtain ⟨-, rfl⟩ := Process.mayEnd_done.mp hnext
            exact .inr ⟨b, e, c', t', htest, hbody, hends, hincrement, hrest⟩
  · rintro (hends | ⟨b, e, c', t', htest, hbody, hgoesOn, hincrement, hrest⟩)
    · cases hends with
      | failed htest => exact ⟨false, left, htest, .done _ _⟩
      | ended htest hbody hends =>
          refine ⟨true, _, htest, Process.mayEnd_bind.mpr ⟨_, left, hbody, ?_⟩⟩
          simp only [hends]
          exact .done _ _
    · refine ⟨true, b, htest, Process.mayEnd_bind.mpr ⟨c', e, hbody, ?_⟩⟩
      simp only [hgoesOn]
      refine Process.mayEnd_bind.mpr ⟨(), t', ?_, hrest⟩
      exact Process.mayEnd_bind.mpr ⟨(), _, .done _ _, hincrement⟩

/-- Whatever the loop comes to from here, it arrives somewhere and ends there. -/
theorem Arrives.exists_ends (hnames : loop.names ≠ []) {rounds : List Round}
    (h : loop.Arrives on s rounds t) (hrest : (loop.goOn on bound t).MayEnd c left) :
    ∃ rounds' t', rounds'.length < rounds.length + bound ∧ loop.Arrives on s rounds' t' ∧
      loop.Ends on t' c left := by
  induction bound generalizing rounds t with
  | zero => cases hrest
  | succ bound ih =>
      obtain hends | ⟨b, e, c', t', htest, hbody, hgoesOn, hincrement, hrest⟩ :=
        (mayEnd_goOn_succ hnames).mp hrest
      · exact ⟨rounds, t, by omega, h, hends⟩
      · obtain ⟨rounds', t'', hlength, harrives, hends⟩ :=
          ih (h.round htest hbody hgoesOn hincrement) hrest
        refine ⟨rounds', t'', ?_, harrives, hends⟩
        rw [List.length_append, List.length_singleton] at hlength
        omega

/-- What is left to do when the loop has arrived somewhere is done by the statement. -/
theorem Arrives.mayEnd_stmt (hnames : loop.names ≠ []) {rounds : List Round}
    (h : loop.Arrives on s rounds t) (hbound : on.rounds = rounds.length + bound)
    (hrest : (loop.goOn on bound t).MayEnd c left) :
    (execStmt on loop.stmt s).MayEnd c (left.changeEnv Environment.leaveBlock) := by
  induction h generalizing bound c left with
  | declared hdeclared =>
      rw [List.length_nil, Nat.zero_add] at hbound
      rw [stmt_eq]
      refine Process.mayEnd_bind.mpr ⟨(), _, .done _ _, Process.mayEnd_leaving.mpr ⟨left, ?_, rfl⟩⟩
      exact Process.mayEnd_bind.mpr ⟨(), _, hdeclared, hbound ▸ hrest⟩
  | round _ htest hbody hgoesOn hincrement ih =>
      rw [List.length_append, List.length_singleton] at hbound
      have hround := (mayEnd_goOn_succ hnames).mpr
        (.inr ⟨_, _, _, _, htest, hbody, hgoesOn, hincrement, hrest⟩)
      exact ih (by omega) hround

/-- **What a loop does.** The statement ends as a run of the loop does that has arrived somewhere,
and leaves the block that it is in. -/
theorem mayEnd_iff (hnames : loop.names ≠ []) {s' : State} :
    (execStmt on loop.stmt s).MayEnd c s' ↔
      ∃ rounds t left, rounds.length < on.rounds ∧ loop.Arrives on s rounds t ∧
        loop.Ends on t c left ∧ s' = left.changeEnv Environment.leaveBlock := by
  constructor
  · intro h
    rw [stmt_eq] at h
    obtain ⟨_, entered, hentered, hblock⟩ := Process.mayEnd_bind.mp h
    obtain ⟨-, rfl⟩ := Process.mayEnd_done.mp hentered
    obtain ⟨left, hinside, rfl⟩ := Process.mayEnd_leaving.mp hblock
    obtain ⟨_, t, hdeclared, hrest⟩ := Process.mayEnd_bind.mp hinside
    obtain ⟨rounds, t', hlength, harrives, hends⟩ :=
      Arrives.exists_ends hnames (.declared hdeclared) hrest
    rw [List.length_nil, Nat.zero_add] at hlength
    exact ⟨rounds, t', left, hlength, harrives, hends, rfl⟩
  · rintro ⟨rounds, t, left, hlength, harrives, hends, rfl⟩
    obtain ⟨bound, hbound⟩ := Nat.exists_eq_add_of_lt hlength
    have hrest : (loop.goOn on (bound + 1) t).MayEnd c left :=
      (mayEnd_goOn_succ hnames).mpr (.inl hends)
    exact harrives.mayEnd_stmt hnames (by omega) hrest

end LetLoop

end StepTrace
