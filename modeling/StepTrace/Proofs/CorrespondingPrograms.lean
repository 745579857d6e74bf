import StepTrace.Proofs.Correspondence

/-!
# Corresponding programs

A program and the same program with further captures correspond, whatever the
correspondence (`Correspondence.program`), and every congruence relates a program to itself
(`Congruence.program`). The induction is on the syntax tree, one case a constructor, and
around it, for calls, on the number of nested calls.

The condition and the step of a `for` loop are the same on both sides. They are covered by
the same induction, since a map without executable lines places no capture.
-/

namespace StepTrace

open Syntax Capture

/-- The environment in which a declaration of the kind has bound the name. -/
def Environment.bindAs (env : Environment) (kind : DeclKind) (name : String) (value : Value) :
    Environment :=
  match kind with
  | .varDecl => env.declareVar name value
  | .letDecl => env.declare name value false
  | .constDecl => env.declare name value true

/-- The environment in which a declaration of the kind has bound the names one after the other. -/
def Environment.bindAll (env : Environment) (kind : DeclKind) (entries : List (String × Value)) :
    Environment :=
  entries.foldl (fun env entry => env.bindAs kind entry.1 entry.2) env

theorem bind_name (kind : DeclKind) (name : String) (value : Value) (loc : Location) :
    bind kind (.name name) value loc = Eval.changeEnv (·.bindAs kind name value) :=
  rfl

theorem bind_list (kind : DeclKind) (names : List String) (value : Value) (loc : Location) :
    bind kind (.list names) value loc =
      Eval.consultAt loc (fun heap => value.firstElements heap names.length) >>= fun items =>
        Eval.changeEnv fun env => (names.zip items).foldl (fun env entry =>
          env.bindAs kind entry.1 entry.2) env :=
  rfl

theorem evalExpr_call (on : Setting) {f : Expr} (args : List Element) (loc : Location)
    (h : ∀ container name l, f ≠ .member container name l) :
    evalExpr on (.call f args loc) = (do
      let callee ← evalExpr on f
      let values ← evalElements on args
      on.call callee values (describe f) loc) := by
  rw [evalExpr]
  exact h

theorem Eval.complete_capture (line : Nat) (rest : List Stmt) :
    Eval.complete (.capture line) rest = pure () := rfl

theorem execEach_capture (on : Setting) (line : Nat) (rest : List Stmt) :
    execEach on (.capture line :: rest) =
      Eval.capture on.candidates line >>= fun _ => execEach on rest := by
  rw [execEach, execStmt]
  simp only [bind_assoc, pure_bind, Eval.complete_capture]

/-- What a call runs in its frame: the parameters are bound, and the body is run. -/
def callBody (on : Setting) (closure : Closure) (args : List Value) : Eval Completion := do
  Eval.changeEnv fun env =>
    (closure.function.params.zipIdx).foldl (fun env (name, k) =>
      env.declare name (args[k]?.getD .undefined) false) env
  execStmts on closure.function.body

/-- The parameters are bound one after the other, as by a declaration. -/
theorem callBody_eq (on : Setting) (closure : Closure) (args : List Value) :
    callBody on closure args = (do
      Eval.changeEnv (·.bindAll .letDecl
        (closure.function.params.zipIdx.map fun entry =>
          (entry.1, args[entry.2]?.getD .undefined)))
      execStmts on closure.function.body) := by
  unfold callBody Environment.bindAll
  simp only [List.foldl_map]
  rfl

theorem callClosure_eq (on : Setting) (closure : Closure) (args : List Value) (loc : Location) :
    callClosure on closure args loc = (do
      let depth ← Eval.calling
      if depth ≥ Limit.callDepth then Eval.raise loc .callDepth
      else
        let completion ← Eval.frame (closure.function.name.getD "<anonymous>") closure.scope
          (callBody on closure args)
        pure completion.result) := rfl

theorem execDeclarators_cons (on : Setting) (kind : DeclKind) (loc : Location) (target : Binder)
    (value : Option Expr) (rest : List Declarator) :
    execDeclarators on kind loc (.mk target value :: rest) = (do
      let value ← value.elim (pure .undefined) (evalExpr on)
      bind kind target value loc
      execDeclarators on kind loc rest) := by
  cases value with
  | none =>
      rw [execDeclarators]
      rfl
  | some e =>
      rw [execDeclarators]
      rfl

theorem hoist_skip {stmt : Stmt} (rest : List Stmt) (h : ∀ f l, stmt ≠ .function f l) :
    hoist (stmt :: rest) = hoist rest := by
  rw [hoist]
  exact h

theorem hoist_captureBehind (map : Array LineKind) (suspending : Bool) (stmt : Stmt)
    (rest : List Stmt) : hoist (captureBehind map suspending stmt ++ rest) = hoist rest := by
  rcases captureBehind_eq map suspending stmt with h | ⟨line, _, _, _, h⟩
  · rw [h, List.nil_append]
  · rw [h, List.singleton_append, hoist_skip _ (by simp)]

/-- What is known of a function is known of its parameters and its body. -/
theorem Within.Of.body {Marked : Nat → Prop} {Named Spelled : String → Prop}
    {Sited : Location → Prop} {f : Function} (h : Within.Of Marked Named Spelled Sited f) :
    (∀ name ∈ f.params, Named name) ∧
      Within Marked Named Spelled Sited (captures f.body) (boundNames f.body) (parts f.body)
        (locs f.body) := by
  unfold Within.Of at h
  rw [functionCaptures_eq, functionNames_eq, functionParts_eq, functionLocs_eq] at h
  obtain ⟨hparams, hbody⟩ := Within.binding_iff.mp h
  refine ⟨hparams, hbody.toConfinedAt, fun digits hdigits => ?_⟩
  exact hbody.spelled digits (List.mem_append_left _ hdigits)

namespace ExprConcord

variable {map placing : Array LineKind} (C : ExprConcord map)

variable {on on' : Setting} (hcall : C.Callers on.call on'.call) (hp : PlacedBy map placing)
include hcall hp

/-! ## Expressions -/

-- the theorems of a mutual block use both facts through each other
set_option linter.unusedSectionVars false

mutual
theorem expr : ∀ e : Expr,
    C.Fits (exprCaptures e) (exprNames e) (exprParts e) (exprLocs e) →
    C.Rel (evalExpr on e) (evalExpr on' (placeExpr placing e))
  | .number _ _, _ => by
      rw [placeExpr, evalExpr, evalExpr]
      exact C.pure _
  | .bigint digits loc, h => by
      rw [placeExpr, evalExpr, evalExpr]
      split
      · exact C.pure _
      · rename_i hread
        have hloc := h.sited loc (List.mem_singleton_self _)
        exact C.misspelled hloc (h.spelled digits (List.mem_singleton_self _)) hread
  | .string _ _, _ => by
      rw [placeExpr, evalExpr, evalExpr]
      exact C.pure _
  | .bool _ _, _ => by
      rw [placeExpr, evalExpr, evalExpr]
      exact C.pure _
  | .null _, _ => by
      rw [placeExpr, evalExpr, evalExpr]
      exact C.pure _
  | .variable name loc, h => by
      rw [placeExpr, evalExpr, evalExpr]
      exact C.lookup (h.sited loc (List.mem_singleton_self _)) name
  | .array es _, h => by
      obtain ⟨-, h⟩ := Within.node_iff.mp h
      rw [placeExpr, evalExpr, evalExpr]
      exact C.bind (elements es h) fun _ => C.newUnchecked _
  | .object fs _, h => by
      obtain ⟨-, h⟩ := Within.node_iff.mp h
      rw [placeExpr, evalExpr, evalExpr]
      exact C.bind (fields fs h) fun _ => C.newObject _
  | .binary (.logical op) a b _, h => by
      obtain ⟨-, h⟩ := Within.node_iff.mp h
      obtain ⟨ha, hb⟩ := Within.append_iff.mp h
      rw [placeExpr, evalExpr, evalExpr]
      refine C.bind (expr a ha) fun value => ?_
      split
      · exact expr b hb
      · exact C.pure value
  | .binary (.strict op) a b loc, h => by
      obtain ⟨hloc, h⟩ := Within.node_iff.mp h
      obtain ⟨ha, hb⟩ := Within.append_iff.mp h
      rw [placeExpr, evalExpr, evalExpr]
      refine C.bind (expr a ha) fun _ => C.bind (expr b hb) fun _ => ?_
      exact C.consultAt hloc fun _ => Value.refuses_binary _ _ _ _
  | .unary op a loc, h => by
      obtain ⟨hloc, h⟩ := Within.node_iff.mp h
      have ha := expr a h
      cases op with
      | negate =>
          rw [placeExpr, evalExpr, evalExpr]
          exact C.bind ha fun _ => C.consult _
      | plus =>
          rw [placeExpr, evalExpr, evalExpr]
          exact C.bind ha fun _ => C.consultAt hloc fun _ => Value.refuses_plus _ _
      | not =>
          rw [placeExpr, evalExpr, evalExpr]
          exact C.bind ha fun _ => C.pure _
      | bitNot =>
          rw [placeExpr, evalExpr, evalExpr]
          exact C.bind ha fun _ => C.consult _
      | typeof =>
          rw [placeExpr]
          cases a with
          | «variable» name l =>
              rw [placeExpr, evalExpr, evalExpr]
              exact C.bind (C.ask (Environment.seesLatest_lookup? name)) fun _ => C.pure _
          | _ =>
              simp only [evalExpr]
              exact C.bind ha fun _ => C.pure _
  | .update op p loc, h => by
      obtain ⟨hloc, h⟩ := Within.node_iff.mp h
      rw [placeExpr, evalExpr, evalExpr]
      refine C.bind (place p h) fun slot => C.bind (C.slotRead hloc slot) fun value => ?_
      refine C.bind (C.consult _) fun answer => ?_
      exact C.bind (C.slotWrite hloc _ slot) fun _ => C.pure _
  | .conditional c t f _, h => by
      obtain ⟨-, h⟩ := Within.node_iff.mp h
      obtain ⟨hct, hf⟩ := Within.append_iff.mp h
      obtain ⟨hc, ht⟩ := Within.append_iff.mp hct
      rw [placeExpr, evalExpr, evalExpr]
      refine C.bind (expr c hc) fun value => ?_
      split
      · exact expr t ht
      · exact expr f hf
  | .assign (.single p) v loc, h => by
      obtain ⟨hloc, h⟩ := Within.node_iff.mp h
      obtain ⟨hp', hv⟩ := Within.append_iff.mp h
      rw [placeExpr, placeTarget, evalExpr, evalExpr]
      refine C.bind (place p hp') fun slot => C.bind (expr v hv) fun value => ?_
      exact C.bind (C.slotWrite hloc value slot) fun _ => C.pure value
  | .assign (.list ps _) v loc, h => by
      obtain ⟨hloc, h⟩ := Within.node_iff.mp h
      obtain ⟨-, h⟩ := Within.node_iff.mp h
      obtain ⟨hps, hv⟩ := Within.append_iff.mp h
      rw [placeExpr, placeTarget, evalExpr, evalExpr, length_placePlaces]
      refine C.bind (expr v hv) fun value => ?_
      refine C.bind (C.consultAt hloc fun _ => Value.refuses_firstElements _ _ _) fun items => ?_
      exact C.bind (places hloc ps items hps) fun _ => C.pure value
  | .compound op p v loc, h => by
      obtain ⟨hloc, h⟩ := Within.node_iff.mp h
      obtain ⟨hp', hv⟩ := Within.append_iff.mp h
      rw [placeExpr, evalExpr, evalExpr]
      refine C.bind (place p hp') fun slot => C.bind (C.slotRead hloc slot) fun current => ?_
      refine C.bind (expr v hv) fun operand => ?_
      refine C.bind (C.consultAt hloc fun _ => Value.refuses_binary _ _ _ _) fun value => ?_
      exact C.bind (C.slotWrite hloc value slot) fun _ => C.pure value
  | .call f args loc, h => by
      obtain ⟨hloc, h⟩ := Within.node_iff.mp h
      obtain ⟨hf, hargs⟩ := Within.append_iff.mp h
      have hcallee := expr f hf
      have hvalues := elements args hargs
      cases f with
      | member container name l =>
          obtain ⟨-, hcontainer⟩ := Within.node_iff.mp hf
          rw [placeExpr, placeExpr, evalExpr, evalExpr]
          refine C.bind (expr container hcontainer) fun receiver => C.bind hvalues fun values => ?_
          exact C.callMethod hcall receiver name values hloc
      | _ =>
          rw [placeExpr, evalExpr_call on args loc (by simp),
            evalExpr_call on' _ loc (by simp [placeExpr]), describe_placeExpr]
          refine C.bind hcallee fun callee => C.bind hvalues fun values => ?_
          exact hcall callee _ _ loc hloc
  | .construct f args loc, h => by
      obtain ⟨hloc, h⟩ := Within.node_iff.mp h
      obtain ⟨hf, hargs⟩ := Within.append_iff.mp h
      rw [placeExpr, evalExpr, evalExpr, describe_placeExpr]
      refine C.bind (expr f hf) fun callee => C.bind (elements args hargs) fun values => ?_
      split
      · split
        · exact C.nativeCall hcall _ values hloc
        · exact C.raise hloc trivial
      · exact C.raise hloc trivial
  | .index a k loc, h => by
      obtain ⟨hloc, h⟩ := Within.node_iff.mp h
      obtain ⟨ha, hk⟩ := Within.append_iff.mp h
      rw [placeExpr, evalExpr, evalExpr]
      refine C.bind (expr a ha) fun _ => C.bind (expr k hk) fun _ => ?_
      exact C.consultAt hloc fun _ => Value.refuses_indexed _ _ _
  | .member a name loc, h => by
      obtain ⟨hloc, h⟩ := Within.node_iff.mp h
      rw [placeExpr, evalExpr, evalExpr]
      exact C.bind (expr a h) fun _ => C.consultAt hloc fun _ => Value.refuses_member _ _ _
  | .function f _, h => by
      obtain ⟨-, h⟩ := Within.node_iff.mp h
      rw [placeExpr, evalExpr, evalExpr]
      exact C.newClosure hp h
  | .await a _, h => by
      obtain ⟨-, h⟩ := Within.node_iff.mp h
      rw [placeExpr, evalExpr, evalExpr]
      exact expr a h

theorem place : ∀ p : Place,
    C.Fits (placeCaptures p) (placeNames p) (placeParts p) (placeLocs p) →
    C.Rel (evalPlace on p) (evalPlace on' (placePlace placing p))
  | .variable _ _, _ => by
      rw [placePlace, evalPlace, evalPlace]
      exact C.pure _
  | .index a k _, h => by
      obtain ⟨-, h⟩ := Within.node_iff.mp h
      obtain ⟨ha, hk⟩ := Within.append_iff.mp h
      rw [placePlace, evalPlace, evalPlace]
      exact C.bind (expr a ha) fun _ => C.bind (expr k hk) fun _ => C.pure _
  | .member a _ _, h => by
      obtain ⟨-, h⟩ := Within.node_iff.mp h
      rw [placePlace, evalPlace, evalPlace]
      exact C.bind (expr a h) fun _ => C.pure _

theorem places {loc : Location} (hloc : C.Sited loc) : ∀ (ps : List Place) (items : List Value),
    C.Fits (placesCaptures ps) (placesNames ps) (placesParts ps) (placesLocs ps) →
    C.Rel (assignEach on loc ps items) (assignEach on' loc (placePlaces placing ps) items)
  | [], _, _ => by
      simp only [placePlaces, assignEach]
      exact C.pure _
  | p :: ps, [], _ => by
      simp only [placePlaces, assignEach]
      exact C.pure _
  | p :: ps, item :: items, h => by
      obtain ⟨hp', hps⟩ := Within.append_iff.mp h
      rw [placePlaces, assignEach, assignEach]
      refine C.bind (place p hp') fun slot => C.bind (C.slotWrite hloc item slot) fun _ => ?_
      exact places hloc ps items hps

theorem elements : ∀ es : List Element,
    C.Fits (elementCaptures es) (elementNames es) (elementParts es) (elementLocs es) →
    C.Rel (evalElements on es) (evalElements on' (placeElements placing es))
  | [], _ => by
      rw [placeElements, evalElements, evalElements]
      exact C.pure _
  | .item e :: rest, h => by
      obtain ⟨he, hrest⟩ := Within.append_iff.mp h
      rw [placeElements, evalElements, evalElements]
      exact C.bind (expr e he) fun _ => C.bind (elements rest hrest) fun _ => C.pure _
  | .spread e loc :: rest, h => by
      obtain ⟨hloc, h⟩ := Within.node_iff.mp h
      obtain ⟨he, hrest⟩ := Within.append_iff.mp h
      rw [placeElements, evalElements, evalElements]
      refine C.bind (expr e he) fun value => ?_
      refine C.bind (C.consultAt hloc fun _ => Value.refuses_elements _ _) fun items => ?_
      exact C.bind (elements rest hrest) fun _ => C.pure _

theorem fields : ∀ fs : List (String × Expr),
    C.Fits (fieldCaptures fs) (fieldNames fs) (fieldParts fs) (fieldLocs fs) →
    C.Rel (evalFields on fs) (evalFields on' (placeFields placing fs))
  | [], _ => by
      rw [placeFields, evalFields, evalFields]
      exact C.pure _
  | (_, e) :: rest, h => by
      obtain ⟨he, hrest⟩ := Within.append_iff.mp h
      rw [placeFields, evalFields, evalFields]
      exact C.bind (expr e he) fun _ => C.bind (fields rest hrest) fun _ => C.pure _
end

omit hp in
/-- An expression corresponds to itself. -/
theorem exprSame (e : Expr)
    (h : C.Fits (exprCaptures e) (exprNames e) (exprParts e) (exprLocs e)) :
    C.Rel (evalExpr on e) (evalExpr on' e) := by
  have hsame := C.expr hcall (Or.inr rfl) e h
  rwa [placeExpr_empty] at hsame

omit hcall hp in
theorem condition {e e' : Expr} (h : C.Rel (evalExpr on e) (evalExpr on' e')) :
    C.Rel (evalCondition on e) (evalCondition on' e') :=
  C.bind h fun _ => C.pure _

end ExprConcord

namespace ProgramConcord

variable {map placing : Array LineKind} (C : ProgramConcord map)

/-- Two settings correspond if calls and loops in them do. -/
structure Settings (on on' : Setting) : Prop where
  call : C.Callers on.call on'.call
  rounds : ∀ {test test' : Eval Bool} {body body' : Eval Completion} {next next' : Eval Unit},
    C.Rel test test' → C.Rel body body' → C.Rel next next' →
    C.Rel (Eval.rounds test body next on.rounds) (Eval.rounds test' body' next' on'.rounds)
  candidates : on'.candidates = on.candidates
  looks : C.Looks on.candidates

theorem bindTarget (kind : DeclKind) {target : Binder} (value : Value) {loc : Location}
    (hloc : C.Sited loc) (hnames : ∀ name ∈ target.names, C.Named name) :
    C.Rel (StepTrace.bind kind target value loc) (StepTrace.bind kind target value loc) := by
  have hbinds (name : String) (value : Value) (hname : C.Named name) :
      Environment.BindsOnly C.Named (·.bindAs kind name value) := by
    cases kind with
    | varDecl => exact .declareIn _ value false hname
    | letDecl => exact .declare value false hname
    | constDecl => exact .declare value true hname
  have hlatest (name : String) (value : Value) :
      Environment.ChangesLatest (·.bindAs kind name value) := by
    cases kind with
    | varDecl => exact .declareVar name value
    | letDecl => exact .declare name value false
    | constDecl => exact .declare name value true
  cases target with
  | name name =>
      rw [bind_name]
      exact C.changeEnv (hbinds name value (hnames name (List.mem_singleton_self _)))
        (hlatest name value)
  | list names =>
      rw [bind_list]
      refine C.bind (C.consultAt hloc fun heap => Value.refuses_firstElements heap value _)
        fun items => C.changeEnv ?_ (.foldl (fun entry => hlatest _ _) _)
      exact .foldl (names.zip items) fun entry hentry =>
        hbinds _ _ (hnames _ (List.of_mem_zip hentry).1)

variable {on on' : Setting} (hon : C.Settings on on') (hp : PlacedBy map placing)
include hon hp

-- the theorems of a mutual block use both facts through each other
set_option linter.unusedSectionVars false

/-! ## The clauses of statements -/

theorem declarators (kind : DeclKind) {loc : Location} (hloc : C.Sited loc) :
    ∀ ds : List Declarator,
    C.Fits (declaratorCaptures ds) (declaratorNames ds) (declaratorParts ds) (declaratorLocs ds) →
    C.Rel (execDeclarators on kind loc ds)
      (execDeclarators on' kind loc (placeDeclarators placing ds))
  | [], _ => by
      rw [placeDeclarators, execDeclarators, execDeclarators]
      exact C.pure _
  | .mk target none :: rest, h => by
      obtain ⟨htarget, hrest⟩ := Within.binding_iff.mp h
      rw [placeDeclarators, execDeclarators, execDeclarators]
      refine C.bind (C.pure _) fun value => ?_
      refine C.bind (C.bindTarget kind value hloc htarget) fun _ => ?_
      exact declarators kind hloc rest hrest
  | .mk target (some e) :: rest, h => by
      obtain ⟨htarget, hothers⟩ := Within.binding_iff.mp h
      obtain ⟨he, hrest⟩ := Within.append_iff.mp hothers
      rw [placeDeclarators, execDeclarators, execDeclarators]
      refine C.bind (C.expr hon.call hp e he) fun value => ?_
      refine C.bind (C.bindTarget kind value hloc htarget) fun _ => ?_
      exact declarators kind hloc rest hrest

theorem start (first : ForStart)
    (h : C.Fits (startCaptures first) (startNames first) (startParts first) (startLocs first)) :
    C.Rel (execStart on (some first)) (execStart on' (some (placeStart placing first))) := by
  cases first with
  | declare kind ds loc =>
      obtain ⟨hloc, h⟩ := Within.node_iff.mp h
      exact C.declarators hon hp kind hloc ds h
  | expr e loc =>
      obtain ⟨-, h⟩ := Within.node_iff.mp h
      exact C.bind (C.expr hon.call hp e h) fun _ => C.pure _

omit hp in
theorem step {names : List String} (hnames : ∀ name ∈ names, C.Named name)
    (next : Option Expr) (h : C.Fits (optionalCaptures next) (optionalNames next)
      (optionalParts next) (optionalLocs next)) :
    C.Rel (execStep on names next) (execStep on' names next) := by
  have hround := C.changeEnv (.nextRound hnames) (.nextRound names)
  unfold execStep
  cases next with
  | none =>
      dsimp only
      split
      · exact C.bind hround fun _ => C.pure _
      · exact C.pure _
  | some e =>
      have he := C.exprSame hon.call e h
      dsimp only
      split
      · exact C.bind hround fun _ => C.bind he fun _ => C.pure _
      · exact C.bind he fun _ => C.pure _

omit hp in
theorem test (e : Option Expr) :
    C.Fits (optionalCaptures e) (optionalNames e) (optionalParts e) (optionalLocs e) →
    C.Rel
      (match e with
        | some e => evalCondition on e
        | none => Pure.pure true)
      (match e with
        | some e => evalCondition on' e
        | none => Pure.pure true) := by
  intro h
  cases e with
  | none => exact C.pure _
  | some e => exact C.condition (C.exprSame hon.call e h)

omit hon in
theorem hoistAll (suspending : Bool) : ∀ stmts : List Stmt,
    C.Fits (captures stmts) (boundNames stmts) (parts stmts) (locs stmts) →
    C.Rel (hoist stmts) (hoist (placeStmts placing suspending stmts))
  | [], _ => by
      rw [placeStmts]
      exact C.pure _
  | stmt :: rest, h => by
      obtain ⟨hstmt, hrest⟩ := Within.append_iff.mp h
      have hothers := hoistAll suspending rest hrest
      rw [placeStmts]
      by_cases hf : ∃ f l, stmt = .function f l
      · obtain ⟨f, l, rfl⟩ := hf
        rw [placeStmt, hoist, hoist, hoist_captureBehind, name_placeFunction]
        obtain ⟨-, hstmt⟩ := Within.node_iff.mp hstmt
        obtain ⟨hname, hf⟩ := Within.binding_iff.mp hstmt
        cases hfound : f.name with
        | none => exact hothers
        | some name =>
            have hnamed : C.Named name := hname name (by simp [hfound])
            refine C.bind (C.newClosure hp hf) fun closure => ?_
            have hdeclare := C.changeEnv (.declare closure false hnamed)
              (.declare name closure false)
            exact C.bind hdeclare fun _ => hothers
      · have hskip : ∀ f l, stmt ≠ .function f l := fun f l h => hf ⟨f, l, h⟩
        rw [hoist_skip _ hskip, hoist_skip _ (placeStmt_ne_function placing suspending hskip),
          hoist_captureBehind]
        exact hothers

/-! ## Statements -/

mutual
theorem stmt (suspending : Bool) : ∀ stmt : Stmt,
    C.Fits (stmtCaptures stmt) (stmtNames stmt) (stmtParts stmt) (stmtLocs stmt) →
    C.Rel (execStmt on stmt) (execStmt on' (placeStmt placing suspending stmt))
  | .function _ _, _ => by
      rw [placeStmt, execStmt, execStmt]
      exact C.pure _
  | .declare kind ds loc, h => by
      obtain ⟨hloc, h⟩ := Within.node_iff.mp h
      rw [placeStmt, execStmt, execStmt]
      exact C.bind (C.declarators hon hp kind hloc ds h) fun _ => C.pure _
  | .return none _, _ => by
      rw [placeStmt, execStmt, execStmt]
      exact C.leaveWith _
  | .return (some e) _, h => by
      obtain ⟨-, h⟩ := Within.node_iff.mp h
      rw [placeStmt, execStmt, execStmt]
      exact C.bind (C.expr hon.call hp e h) fun value => C.leaveWith value
  | .branch c t none _, h => by
      obtain ⟨-, h⟩ := Within.node_iff.mp h
      obtain ⟨hc, ht⟩ := Within.append_iff.mp h
      rw [placeStmt, execStmt, execStmt]
      refine C.bind (C.condition (C.expr hon.call hp c hc)) fun holds => ?_
      split
      · exact scope suspending t ht
      · exact C.pure _
  | .branch c t (some f) _, h => by
      obtain ⟨-, h⟩ := Within.node_iff.mp h
      obtain ⟨hct, hf⟩ := Within.append_iff.mp h
      obtain ⟨hc, ht⟩ := Within.append_iff.mp hct
      rw [placeStmt, execStmt, execStmt]
      refine C.bind (C.condition (C.expr hon.call hp c hc)) fun holds => ?_
      split
      · exact scope suspending t ht
      · exact scope suspending f hf
  | .while c body _, h => by
      obtain ⟨-, h⟩ := Within.node_iff.mp h
      obtain ⟨hc, hbody⟩ := Within.append_iff.mp h
      rw [placeStmt, execStmt, execStmt]
      have hround := scope suspending body hbody
      exact hon.rounds (C.condition (C.expr hon.call hp c hc)) hround (C.pure _)
  | .doWhile body c _, h => by
      obtain ⟨-, h⟩ := Within.node_iff.mp h
      obtain ⟨hbody, hc⟩ := Within.append_iff.mp h
      have hround := scope suspending body hbody
      rw [placeStmt, execStmt, execStmt]
      refine C.bind hround fun completion => ?_
      split
      · exact C.pure _
      · exact hon.rounds (C.condition (C.expr hon.call hp c hc)) hround (C.pure _)
  | .for none c next body _, h => by
      obtain ⟨-, h⟩ := Within.node_iff.mp h
      obtain ⟨hclauses, hbody⟩ := Within.append_iff.mp h
      obtain ⟨hc, hnext⟩ := Within.append_iff.mp hclauses
      rw [placeStmt]
      unfold execStmt
      refine C.block (C.bind (C.pure _) fun _ => ?_)
      have hnone : ∀ name ∈ ([] : List String), C.Named name := by simp
      have hstep := C.step hon hnone next hnext
      exact hon.rounds (C.test hon c hc) (scope suspending body hbody) hstep
  | .for (some first) c next body _, h => by
      obtain ⟨-, h⟩ := Within.node_iff.mp h
      obtain ⟨hclauses, hbody⟩ := Within.append_iff.mp h
      obtain ⟨hfc, hnext⟩ := Within.append_iff.mp hclauses
      obtain ⟨hfirst, hc⟩ := Within.append_iff.mp hfc
      rw [placeStmt]
      unfold execStmt
      rw [roundNames_placeStart]
      refine C.block (C.bind (C.start hon hp first hfirst) fun _ => ?_)
      have hnames : ∀ name ∈ ForStart.roundNames (some first), C.Named name :=
        fun name hname => hfirst.names name (roundNames_subset first name hname)
      have hstep := C.step hon hnames next hnext
      exact hon.rounds (C.test hon c hc) (scope suspending body hbody) hstep
  | .forOf kind target e body loc, h => by
      obtain ⟨hloc, h⟩ := Within.node_iff.mp h
      obtain ⟨htarget, hothers⟩ := Within.binding_iff.mp h
      obtain ⟨he, hbody⟩ := Within.append_iff.mp hothers
      rw [placeStmt, execStmt, execStmt]
      refine C.bind (C.expr hon.call hp e he) fun source => ?_
      refine C.bind (C.consultAt hloc fun _ => Value.refuses_elements _ _) fun items => ?_
      refine C.forEach (fun item => C.block ?_) items.toList
      exact C.bind (C.bindTarget kind item hloc htarget) fun _ => scope suspending body hbody
  | .break _, _ => by
      rw [placeStmt, execStmt, execStmt]
      exact C.pure _
  | .continue _, _ => by
      rw [placeStmt, execStmt, execStmt]
      exact C.pure _
  | .throw e loc, h => by
      obtain ⟨hloc, h⟩ := Within.node_iff.mp h
      rw [placeStmt, execStmt, execStmt]
      refine C.bind (C.expr hon.call hp e h) fun value => ?_
      exact C.bind (C.consult _) fun text => C.raise hloc trivial
  | .block body _, h => by
      obtain ⟨-, h⟩ := Within.node_iff.mp h
      rw [placeStmt, execStmt, execStmt]
      exact scope suspending body h
  | .expr e _, h => by
      obtain ⟨-, h⟩ := Within.node_iff.mp h
      rw [placeStmt, execStmt, execStmt]
      exact C.bind (C.expr hon.call hp e h) fun _ => C.pure _
  | .capture line, h => by
      rw [placeStmt, execStmt, execStmt, hon.candidates]
      have hline : C.Marked line := h.lines line (List.mem_singleton_self line)
      exact C.bind (C.capture hon.looks hline) fun _ => C.pure _

theorem each (suspending : Bool) : ∀ stmts : List Stmt,
    C.Fits (captures stmts) (boundNames stmts) (parts stmts) (locs stmts) →
    C.Rel (execEach on stmts) (execEach on' (placeStmts placing suspending stmts))
  | [], _ => by
      rw [placeStmts, execEach, execEach]
      exact C.pure _
  | first :: rest, h => by
      obtain ⟨hfirst, hrest⟩ := Within.append_iff.mp h
      have hone := stmt suspending first hfirst
      have hothers := each suspending rest hrest
      rw [placeStmts]
      rcases captureBehind_eq placing suspending first with hb | ⟨line, hline, -, hexec, hb⟩
      · rw [hb, List.nil_append, execEach, execEach]
        refine C.bind hone fun completion => ?_
        cases completion with
        | normal => exact C.bind (C.complete hp hrest.lines) fun _ => hothers
        | _ => exact C.pure _
      · -- a map with an executable line is not the empty one
        obtain rfl : placing = map := hp.resolve_right (by rintro rfl; simp [isExecutable] at hexec)
        rw [hb, List.singleton_append, execEach, execEach]
        refine C.bind hone fun completion => ?_
        cases completion with
        | normal =>
            dsimp only
            rw [execEach_capture, ← bind_assoc]
            exact C.bind (C.completeCaptured _ hline hexec hrest.lines) fun _ => hothers
        | _ => exact C.pure _

theorem scope (suspending : Bool) : ∀ stmts : List Stmt,
    C.Fits (captures stmts) (boundNames stmts) (parts stmts) (locs stmts) →
    C.Rel (execBlock on stmts) (execBlock on' (placeStmts placing suspending stmts))
  | stmts, h => by
      rw [execBlock, execBlock]
      exact C.block (C.bind (C.hoistAll hp suspending stmts h) fun _ => each suspending stmts h)
end

theorem stmts (suspending : Bool) (body : List Stmt)
    (h : C.Fits (captures body) (boundNames body) (parts body) (locs body)) :
    C.Rel (execStmts on body) (execStmts on' (placeStmts placing suspending body)) :=
  C.bind (C.hoistAll hp suspending body h) fun _ => C.each hon hp suspending body h

/-! ## Calls -/

/-- The body of a closure, behind the bindings of its parameters. -/
theorem closureBody (closure : Closure) (args : List Value)
    (h : Within.Of C.Marked C.Named C.Spelled C.Sited closure.function) :
    C.Rel (callBody on closure args) (callBody on' (closure.place placing) args) := by
  obtain ⟨hparams, hbody⟩ := h.body
  unfold callBody
  dsimp only [Closure.place]
  rw [params_placeFunction, body_placeFunction]
  refine C.bind (C.changeEnv (.foldl _ fun entry hentry => ?_) (.foldl (fun entry => ?_) _))
    fun _ => C.stmts hon hp _ _ hbody
  · have hparam := List.mem_map_of_mem (f := Prod.fst) hentry
    rw [List.zipIdx_map_fst] at hparam
    exact .declare _ false (hparams _ hparam)
  · exact .declare _ _ false

theorem closureCall (closure : Closure) (args : List Value) {loc : Location} (hloc : C.Sited loc)
    (h : Within.Of C.Marked C.Named C.Spelled C.Sited closure.function) :
    C.Rel (callClosure on closure args loc)
      (callClosure on' (closure.place placing) args loc) := by
  rw [callClosure_eq, callClosure_eq]
  refine C.calling hloc ?_
  dsimp only [Closure.place]
  rw [name_placeFunction]
  exact C.bind (C.frame _ _ (C.closureBody hon hp closure args h)) fun completion => C.pure _

omit hon hp in
theorem callsWithin {names : List String} {bound bound' : Nat}
    (h : C.Settings ⟨callWithin names bound, bound, names⟩
      ⟨callWithin names bound', bound', names⟩) :
    C.Callers (callWithin names (bound + 1)) (callWithin names (bound' + 1)) := by
  intro f args callee loc hloc
  unfold callWithin
  cases f with
  | function place =>
      refine C.withClosure place (C.raise hloc trivial) fun placing closure hp hclosure => ?_
      exact C.closureCall h hp closure args hloc hclosure
  | native f => exact C.nativeCall h.call f args hloc
  | _ => exact C.raise hloc trivial

/-! ## Programs -/

omit hon hp in
/-- With the same bound on both sides, settings correspond. -/
theorem settings (names : List String) (hnames : C.Looks names) (bound : Nat) :
    C.Settings ⟨callWithin names bound, bound, names⟩ ⟨callWithin names bound, bound, names⟩ where
  call := by
    induction bound with
    | zero => exact fun _ _ _ _ _ => C.exhausted
    | succ bound ih =>
        exact C.callsWithin ⟨ih, fun ht hb hn => C.rounds ht hb hn bound, rfl, hnames⟩
  rounds := fun ht hb hn => C.rounds ht hb hn bound
  candidates := rfl
  looks := hnames

omit hon hp in
/-- A program corresponds to the same program with further captures if the settings do. -/
theorem program {names : List String} {bound bound' : Nat}
    (h : C.Settings ⟨callWithin names bound, bound, names⟩
      ⟨callWithin names bound', bound', names⟩)
    (program : Program)
    (hprogram : C.Fits (captures program) (boundNames program) (parts program) (locs program)) :
    C.Rel (execProgram names bound program)
      (execProgram names bound' (placeStmts map true program)) :=
  C.frame _ _ (C.bind (C.stmts h (Or.inl rfl) true program hprogram) fun _ => C.pure _)

end ProgramConcord

/-! ## Accords and correspondences -/

theorem Accord.exprSame {map : Array LineKind} (C : Accord map) {on on' : Setting}
    (hcall : C.Callers on.call on'.call) (e : Expr)
    (h : C.Fits (exprCaptures e) (exprNames e) (exprParts e) (exprLocs e)) :
    C.Rel (evalExpr on e) (evalExpr on' e) :=
  C.exprs.exprSame hcall e h

/-- A program is related to itself if the settings correspond. -/
theorem Congruence.program (C : Congruence) {names : List String} {bound bound' : Nat}
    (h : C.correspondence.programs.Settings ⟨callWithin names bound, bound, names⟩
      ⟨callWithin names bound', bound', names⟩) (program : Program) :
    C.Rel (execProgram names bound program) (execProgram names bound' program) := by
  have hprogram := C.correspondence.programs.program h program
    (Confined.within ⟨fun _ _ => trivial, fun _ _ => trivial⟩ _ _)
  rwa [placeStmts_empty] at hprogram

end StepTrace
