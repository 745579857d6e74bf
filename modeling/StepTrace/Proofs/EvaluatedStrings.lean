import StepTrace.Proofs.CorrespondingPrograms
import StepTrace.Proofs.StringOperations

/-!
# What programs make of the limit on strings

A program whose string literals are short ends every evaluation with a short value and leaves all
values short, as long as those are that are made without a check (`KeepsShort.expr`,
`KeepsShort.program`). The induction is on the syntax tree, one case a constructor, and around it,
for calls, on the number of nested calls. A closure comes from the state, but its literals are
those of the program.
-/

namespace StepTrace

open Syntax

/-- The value with which a statement ends a call is short. -/
def Completion.Short : Completion → Prop
  | .return value => value.Short
  | _ => True

theorem Completion.Short.result {completion : Completion} (h : completion.Short) :
    completion.result.Short := by
  cases completion with
  | «return» value => exact h
  | _ => trivial

theorem Completion.Short.endsLoop {completion ending : Completion} (h : completion.Short)
    (hends : completion.endsLoop? = some ending) : ending.Short := by
  cases completion with
  | normal => cases hends
  | «continue» => cases hends
  | «break» =>
      cases hends
      trivial
  | «return» value =>
      cases hends
      exact h

namespace KeepsShort

variable {known : Prop} {loc : Location}

/-! ## Elements -/

theorem elementsOf (value : Value) :
    stringUpkeep.Keeps known (fun items => ∀ item ∈ items, item.Short)
      (Eval.consultAt loc fun heap => value.elements heap) :=
  .consultAt fun _ _ hheap _ h => Value.short_elements hheap h

theorem firstElementsOf (value : Value) (count : Nat) :
    stringUpkeep.Keeps known (fun items => ∀ item ∈ items, item.Short)
      (Eval.consultAt loc fun heap => value.firstElements heap count) :=
  .consultAt fun _ _ hheap _ h => Value.short_firstElements hheap h

/-! ## Environments -/

theorem changeEnv {change : Environment → Environment}
    (h : known → ∀ env : Environment, env.Stores Value.Short → (change env).Stores Value.Short) :
    stringUpkeep.Keeps known (fun _ => True) (Eval.changeEnv change) :=
  .changeEnv h

theorem lookup (name : String) : KeepsShort known (Eval.lookup loc name) := by
  have hfound : stringUpkeep.Keeps known (fun found => ∀ value, found = some value → value.Short)
      (Eval.lookup? name) := .ask fun _ _ _ henv _ value hvalue => henv.lookup? hvalue
  refine hfound.bind fun found => ?_
  cases found with
  | none => exact .raise _ _
  | some value => exact .pure fun hknown => hknown.2 value rfl

theorem assign {name : String} {value : Value} (h : known → value.Short) :
    stringUpkeep.Keeps known (fun _ => True) (Eval.assign loc name value) := by
  have hassignee : stringUpkeep.Keeps True (fun _ => True)
      (Eval.ask fun env _ => env.assignee name) := .ask fun _ _ _ _ _ => trivial
  refine hassignee.seq fun assignee => ?_
  split
  · exact changeEnv fun hknown env henv => henv.store _ name (h hknown)
  · exact .raise _ _
  · exact .raise _ _

theorem slotRead (slot : Slot) : KeepsShort known (slot.read loc) := by
  cases slot with
  | «variable» name => exact lookup name
  | index container key => exact .consultAt fun _ _ hheap _ h => Value.short_indexed hheap h
  | member container name => exact .consultAt fun _ _ hheap _ h => Value.short_member hheap h

theorem slotWrite {value : Value} (h : known → value.Short) (slot : Slot) :
    stringUpkeep.Keeps known (fun _ => True) (slot.write loc value) := by
  cases slot with
  | «variable» name => exact assign h
  | index container key =>
      refine .write fun hknown heap hheap write hwrite => ?_
      exact Heap.Stores.perform hheap (Value.stores_setIndexed (h hknown) hwrite) trivial
  | member container name =>
      refine .write fun hknown heap hheap write hwrite => ?_
      exact Heap.Stores.perform hheap (Value.stores_setMember (h hknown) hwrite) trivial

theorem stores_bindAs {env : Environment} (h : env.Stores Value.Short) (kind : DeclKind)
    (name : String) {value : Value} (hvalue : value.Short) :
    (env.bindAs kind name value).Stores Value.Short := by
  cases kind with
  | varDecl => exact h.declareVar name hvalue
  | letDecl => exact h.declare name false hvalue
  | constDecl => exact h.declare name true hvalue

theorem bindTarget (kind : DeclKind) (target : Binder) {value : Value} (h : known → value.Short) :
    stringUpkeep.Keeps known (fun _ => True) (StepTrace.bind kind target value loc) := by
  cases target with
  | name name =>
      rw [bind_name]
      exact changeEnv fun hknown env henv => stores_bindAs henv kind name (h hknown)
  | list names =>
      rw [bind_list]
      refine (firstElementsOf value _).bind fun items => changeEnv fun hknown env henv => ?_
      refine .foldl _ (fun entry hentry env henv => ?_) henv
      exact stores_bindAs henv kind entry.1 (hknown.2 entry.2 (List.of_mem_zip hentry).2)

theorem block {m : Eval Completion} (h : stringUpkeep.Keeps known Completion.Short m) :
    stringUpkeep.Keeps known Completion.Short (Eval.block m) :=
  Upkeep.Keeps.seq (changeEnv fun _ _ henv => henv.enterBlock)
    fun _ => h.leaving fun _ henv => Environment.Stores.leaveBlock henv

/-! ## Expressions -/

section Expressions

variable {on : Setting} (hcall : ShortCalls on.call)
include hcall

-- the theorems of a mutual block use the fact through each other
set_option linter.unusedSectionVars false

mutual
theorem expr : ∀ e : Expr, ShortTexts (exprTexts e) → KeepsShort True (evalExpr on e)
  | .number _ _, _ => by
      rw [evalExpr]
      exact .pure fun _ => trivial
  | .bigint digits _, _ => by
      rw [evalExpr]
      split
      · exact .pure fun _ => trivial
      · exact .raise _ _
  | .string text _, h => by
      rw [evalExpr]
      exact .pure fun _ => h text (List.mem_singleton_self _)
  | .bool _ _, _ => by
      rw [evalExpr]
      exact .pure fun _ => trivial
  | .null _, _ => by
      rw [evalExpr]
      exact .pure fun _ => trivial
  | .variable name _, _ => by
      rw [evalExpr]
      exact lookup name
  | .array es _, h => by
      rw [evalExpr]
      refine (elements es h).bind fun items => newUnchecked fun hknown item hitem => ?_
      exact hknown.2 item (List.mem_toArray.mp hitem)
  | .object fs _, h => by
      rw [evalExpr]
      exact (fields fs h).bind fun entries => newObject fun hknown => forall_ofList hknown.2
  | .binary (.logical op) a b _, h => by
      obtain ⟨ha, hb⟩ := ShortTexts.append_iff.mp h
      rw [evalExpr]
      refine (expr a ha).bind fun value => ?_
      split
      · exact (expr b hb).weaken
      · exact .pure And.right
  | .binary (.strict op) a b _, h => by
      obtain ⟨ha, hb⟩ := ShortTexts.append_iff.mp h
      rw [evalExpr]
      refine (expr a ha).bind fun _ => (expr b hb).weaken.bind fun _ => ?_
      exact .consultAt fun _ _ _ _ h => Value.short_binary h
  | .unary op a _, h => by
      have ha := expr a h
      cases op with
      | negate =>
          rw [evalExpr]
          exact ha.bind fun value => .consult fun _ heap _ => Value.short_negate heap value
      | plus =>
          rw [evalExpr]
          exact ha.bind fun _ => .consultAt fun _ _ _ _ h => Value.short_plus h
      | not =>
          rw [evalExpr]
          exact ha.bind fun _ => .pure fun _ => trivial
      | bitNot =>
          rw [evalExpr]
          exact ha.bind fun value => .consult fun _ heap _ => Value.short_bitNot heap value
      | typeof =>
          cases a with
          | «variable» name _ =>
              rw [evalExpr]
              have hlook : stringUpkeep.Keeps True (fun _ => True) (Eval.lookup? name) :=
                .ask fun _ _ _ _ _ => trivial
              exact hlook.bind fun found => .pure fun _ => Value.short_typeName _
          | _ =>
              simp only [evalExpr]
              exact ha.bind fun value => .pure fun _ => Value.short_typeName value
  | .update op p _, h => by
      rw [evalExpr]
      refine (place p h).bind fun slot => (slotRead slot).bind fun value => ?_
      have hupdated : stringUpkeep.Keeps ((True ∧ True) ∧ value.Short)
          (fun results : Value × Value => results.1.Short ∧ results.2.Short)
          (Eval.consult fun heap => updated op heap value) :=
        .consult fun _ heap _ => short_updated op heap value
      refine hupdated.bind fun results => ?_
      refine (slotWrite (fun hknown => hknown.2.1) slot).bind fun _ => ?_
      exact .pure fun hknown => hknown.1.2.2
  | .conditional c t f _, h => by
      obtain ⟨hct, hf⟩ := ShortTexts.append_iff.mp h
      obtain ⟨hc, ht⟩ := ShortTexts.append_iff.mp hct
      rw [evalExpr]
      refine (expr c hc).bind fun value => ?_
      split
      · exact (expr t ht).weaken
      · exact (expr f hf).weaken
  | .assign (.single p) v _, h => by
      obtain ⟨hp, hv⟩ := ShortTexts.append_iff.mp h
      rw [evalExpr]
      refine (place p hp).bind fun slot => (expr v hv).weaken.bind fun value => ?_
      exact (slotWrite And.right slot).bind fun _ => .pure fun hknown => hknown.1.2
  | .assign (.list ps _) v loc, h => by
      obtain ⟨hps, hv⟩ := ShortTexts.append_iff.mp h
      rw [evalExpr]
      refine (expr v hv).bind fun value => (firstElementsOf value _).bind fun items => ?_
      refine ((places loc ps items hps).under And.right).bind fun _ => ?_
      exact .pure fun hknown => hknown.1.1.2
  | .compound op p v loc, h => by
      obtain ⟨hp, hv⟩ := ShortTexts.append_iff.mp h
      rw [evalExpr]
      refine (place p hp).bind fun slot => (slotRead slot).bind fun current => ?_
      refine (expr v hv).weaken.bind fun operand => ?_
      have hresult : KeepsShort (((True ∧ True) ∧ current.Short) ∧ operand.Short)
          (Eval.consultAt loc fun heap => current.binary heap op operand) :=
        .consultAt fun _ _ _ _ h => Value.short_binary h
      refine hresult.bind fun value => (slotWrite And.right slot).bind fun _ => ?_
      exact .pure fun hknown => hknown.1.2
  | .call f args loc, h => by
      obtain ⟨hf, hargs⟩ := ShortTexts.append_iff.mp h
      have hcallee := expr f hf
      have hvalues := elements args hargs
      cases f with
      | member container name l =>
          rw [evalExpr]
          refine (expr container hf).bind fun receiver => hvalues.weaken.bind fun values => ?_
          refine (callMethod hcall receiver name values).under fun hknown => ?_
          exact ⟨hknown.1.2, hknown.2⟩
      | _ =>
          rw [evalExpr_call on args loc (by simp)]
          refine hcallee.bind fun callee => hvalues.weaken.bind fun values => ?_
          exact (hcall callee values _ loc).under And.right
  | .construct f args _, h => by
      obtain ⟨hf, hargs⟩ := ShortTexts.append_iff.mp h
      rw [evalExpr]
      refine (expr f hf).bind fun callee => (elements args hargs).weaken.bind fun values => ?_
      split
      · split
        · exact (nativeCall hcall _ values).under And.right
        · exact .raise _ _
      · exact .raise _ _
  | .index a k _, h => by
      obtain ⟨ha, hk⟩ := ShortTexts.append_iff.mp h
      rw [evalExpr]
      refine (expr a ha).bind fun _ => (expr k hk).weaken.bind fun _ => ?_
      exact .consultAt fun _ _ hheap _ h => Value.short_indexed hheap h
  | .member a name _, h => by
      rw [evalExpr]
      exact (expr a h).bind fun _ => .consultAt fun _ _ hheap _ h => Value.short_member hheap h
  | .function f _, h => by
      rw [evalExpr]
      exact .newClosure (fun _ => h) (fun _ hheap => Heap.Stores.addFunction hheap _)
        fun _ => trivial
  | .await a _, h => by
      rw [evalExpr]
      exact expr a h

theorem place : ∀ p : Place, ShortTexts (placeTexts p) →
    stringUpkeep.Keeps True (fun _ => True) (evalPlace on p)
  | .variable _ _, _ => by
      rw [evalPlace]
      exact .pure fun _ => trivial
  | .index a k _, h => by
      obtain ⟨ha, hk⟩ := ShortTexts.append_iff.mp h
      rw [evalPlace]
      exact (expr a ha).bind fun _ => (expr k hk).weaken.bind fun _ => .pure fun _ => trivial
  | .member a _ _, h => by
      rw [evalPlace]
      exact (expr a h).bind fun _ => .pure fun _ => trivial

theorem places (site : Location) : ∀ (ps : List Place) (items : List Value),
    ShortTexts (placesTexts ps) →
    stringUpkeep.Keeps (∀ item ∈ items, item.Short) (fun _ => True) (assignEach on site ps items)
  | [], _, _ => by
      simp only [assignEach]
      exact .pure fun _ => trivial
  | _ :: _, [], _ => by
      simp only [assignEach]
      exact .pure fun _ => trivial
  | p :: ps, item :: items, h => by
      obtain ⟨hp, hps⟩ := ShortTexts.append_iff.mp h
      rw [assignEach]
      refine (place p hp).weaken.bind fun slot => ?_
      refine (slotWrite (fun hknown => hknown.1 item List.mem_cons_self) slot).bind fun _ => ?_
      refine (places site ps items hps).under fun hknown => ?_
      exact (List.forall_mem_cons.mp hknown.1.1).2

theorem elements : ∀ es : List Element, ShortTexts (elementTexts es) →
    stringUpkeep.Keeps True (fun values => ∀ value ∈ values, value.Short) (evalElements on es)
  | [], _ => by
      rw [evalElements]
      exact .pure fun _ => by simp
  | .item e :: rest, h => by
      obtain ⟨he, hrest⟩ := ShortTexts.append_iff.mp h
      rw [evalElements]
      refine (expr e he).bind fun value => (elements rest hrest).weaken.bind fun values => ?_
      exact .pure fun hknown => List.forall_mem_cons.mpr ⟨hknown.1.2, hknown.2⟩
  | .spread e loc :: rest, h => by
      obtain ⟨he, hrest⟩ := ShortTexts.append_iff.mp h
      rw [evalElements]
      refine (expr e he).bind fun value => (elementsOf value).bind fun items => ?_
      refine (elements rest hrest).weaken.bind fun values => .pure fun hknown => ?_
      refine List.forall_mem_append.mpr ⟨fun item hitem => ?_, hknown.2⟩
      exact hknown.1.2 item (Array.mem_toList_iff.mp hitem)

theorem fields : ∀ fs : List (String × Expr), ShortTexts (fieldTexts fs) →
    stringUpkeep.Keeps True (fun entries => ∀ entry ∈ entries, entry.2.Short) (evalFields on fs)
  | [], _ => by
      rw [evalFields]
      exact .pure fun _ => by simp
  | (_, e) :: rest, h => by
      obtain ⟨he, hrest⟩ := ShortTexts.append_iff.mp h
      rw [evalFields]
      refine (expr e he).bind fun value => (fields rest hrest).weaken.bind fun entries => ?_
      exact .pure fun hknown => List.forall_mem_cons.mpr ⟨hknown.1.2, hknown.2⟩
end

theorem condition (e : Expr) (h : ShortTexts (exprTexts e)) :
    stringUpkeep.Keeps True (fun _ => True) (evalCondition on e) :=
  (expr hcall e h).bind fun _ => .pure fun _ => trivial

/-! ## The clauses of statements -/

theorem declarators (kind : DeclKind) (loc : Location) : ∀ ds : List Declarator,
    ShortTexts (declaratorTexts ds) →
    stringUpkeep.Keeps True (fun _ => True) (execDeclarators on kind loc ds)
  | [], _ => by
      rw [execDeclarators]
      exact .pure fun _ => trivial
  | .mk target none :: rest, h => by
      rw [execDeclarators]
      have hvalue : KeepsShort True (Pure.pure .undefined) := .pure fun _ => trivial
      refine hvalue.bind fun value => (bindTarget kind target And.right).bind fun _ => ?_
      exact (declarators kind loc rest h).weaken
  | .mk target (some e) :: rest, h => by
      obtain ⟨he, hrest⟩ := ShortTexts.append_iff.mp h
      rw [execDeclarators]
      refine (expr hcall e he).bind fun value => (bindTarget kind target And.right).bind fun _ => ?_
      exact (declarators kind loc rest hrest).weaken

theorem start (first : ForStart) (h : ShortTexts (startTexts first)) :
    stringUpkeep.Keeps True (fun _ => True) (execStart on (some first)) := by
  cases first with
  | declare kind ds loc => exact declarators hcall kind loc ds h
  | expr e loc => exact (expr hcall e h).bind fun _ => .pure fun _ => trivial

theorem step (names : List String) (next : Option Expr) (h : ShortTexts (optionalTexts next)) :
    stringUpkeep.Keeps True (fun _ => True) (execStep on names next) := by
  have hround : stringUpkeep.Keeps True (fun _ => True) (Eval.changeEnv (nextRound names)) :=
    changeEnv fun _ _ henv => henv.nextRound names trivial
  unfold execStep
  cases next with
  | none =>
      dsimp only
      split
      · exact hround.seq fun _ => .pure fun _ => trivial
      · exact .pure fun _ => trivial
  | some e =>
      have he : stringUpkeep.Keeps True (fun _ => True) (evalExpr on e >>= fun _ => Pure.pure ()) :=
        (expr hcall e h).bind fun _ => .pure fun _ => trivial
      dsimp only
      split
      · exact hround.seq fun _ => he
      · exact he

theorem test (e : Option Expr) (h : ShortTexts (optionalTexts e)) :
    stringUpkeep.Keeps True (fun _ => True)
      (match e with
        | some e => evalCondition on e
        | none => Pure.pure true) := by
  cases e with
  | none => exact .pure fun _ => trivial
  | some e => exact condition hcall e h

omit hcall in
theorem hoistAll : ∀ body : List Stmt, ShortTexts (texts body) →
    stringUpkeep.Keeps True (fun _ => True) (hoist body)
  | [], _ => .pure fun _ => trivial
  | stmt :: rest, h => by
      obtain ⟨hstmt, hrest⟩ := ShortTexts.append_iff.mp h
      have hothers := hoistAll rest hrest
      by_cases hf : ∃ f l, stmt = .function f l
      · obtain ⟨f, l, rfl⟩ := hf
        rw [hoist]
        cases f.name with
        | none => exact hothers
        | some name =>
            have hclosure : KeepsShort True (Eval.newClosure f) :=
              .newClosure (fun _ => hstmt) (fun _ hheap => Heap.Stores.addFunction hheap _)
                fun _ => trivial
            refine hclosure.bind fun closure => ?_
            refine (changeEnv fun hknown _ henv => ?_).bind fun _ => ?_
            · exact henv.declare name false hknown.2
            · exact hothers.weaken
      · rw [hoist_skip rest fun f l hsame => hf ⟨f, l, hsame⟩]
        exact hothers

/-! ## Loops -/

omit hcall in
theorem rounds {test : Eval Bool} {body : Eval Completion} {next : Eval Unit}
    (ht : stringUpkeep.Keeps True (fun _ => True) test)
    (hb : stringUpkeep.Keeps True Completion.Short body)
    (hn : stringUpkeep.Keeps True (fun _ => True) next) (bound : Nat) :
    stringUpkeep.Keeps True Completion.Short (Eval.rounds test body next bound) := by
  induction bound with
  | zero => exact .stop _
  | succ bound ih =>
      refine ht.seq fun goesOn => ?_
      split
      · refine hb.bind fun completion => ?_
        split
        case h_1 ending hends => exact .pure fun hknown => hknown.2.endsLoop hends
        case h_2 => exact hn.seq fun _ => ih.weaken
      · exact .pure fun _ => trivial

omit hcall in
theorem forEach {body : Value → Eval Completion}
    (hb : ∀ item : Value, stringUpkeep.Keeps item.Short Completion.Short (body item))
    (items : List Value) :
    stringUpkeep.Keeps (∀ item ∈ items, item.Short) Completion.Short (Eval.forEach body items) := by
  induction items with
  | nil => exact .pure fun _ => trivial
  | cons item rest ih =>
      have hround : stringUpkeep.Keeps (∀ other ∈ item :: rest, other.Short) Completion.Short
          (body item) := (hb item).under fun hknown => hknown item List.mem_cons_self
      refine hround.bind fun completion => ?_
      split
      case h_1 ending hends => exact .pure fun hknown => hknown.2.endsLoop hends
      case h_2 =>
        exact ih.under fun hknown => (List.forall_mem_cons.mp hknown.1).2

/-! ## Statements -/

mutual
theorem stmt : ∀ stmt : Stmt, ShortTexts (stmtTexts stmt) →
    stringUpkeep.Keeps True Completion.Short (execStmt on stmt)
  | .function _ _, _ => by
      rw [execStmt]
      exact .pure fun _ => trivial
  | .declare kind ds loc, h => by
      rw [execStmt]
      exact (declarators hcall kind loc ds h).bind fun _ => .pure fun _ => trivial
  | .return none _, _ => by
      rw [execStmt]
      exact .record (fun _ => trivial) fun _ => trivial
  | .return (some e) _, h => by
      rw [execStmt]
      exact (expr hcall e h).bind fun value => .record And.right And.right
  | .branch c t none _, h => by
      obtain ⟨hc, ht⟩ := ShortTexts.append_iff.mp h
      rw [execStmt]
      refine (condition hcall c hc).seq fun holds => ?_
      split
      · exact scope t ht
      · exact .pure fun _ => trivial
  | .branch c t (some f) _, h => by
      obtain ⟨hct, hf⟩ := ShortTexts.append_iff.mp h
      obtain ⟨hc, ht⟩ := ShortTexts.append_iff.mp hct
      rw [execStmt]
      refine (condition hcall c hc).seq fun holds => ?_
      split
      · exact scope t ht
      · exact scope f hf
  | .while c body _, h => by
      obtain ⟨hc, hbody⟩ := ShortTexts.append_iff.mp h
      rw [execStmt]
      exact rounds (condition hcall c hc) (scope body hbody) (.pure fun _ => trivial) _
  | .doWhile body c _, h => by
      obtain ⟨hbody, hc⟩ := ShortTexts.append_iff.mp h
      have hround := scope body hbody
      rw [execStmt]
      refine hround.bind fun completion => ?_
      split
      case h_1 ending hends => exact .pure fun hknown => hknown.2.endsLoop hends
      case h_2 => exact (rounds (condition hcall c hc) hround (.pure fun _ => trivial) _).weaken
  | .for none c next body _, h => by
      obtain ⟨hclauses, hbody⟩ := ShortTexts.append_iff.mp h
      obtain ⟨hc, hnext⟩ := ShortTexts.append_iff.mp hclauses
      unfold execStmt
      have hstart : stringUpkeep.Keeps True (fun _ => True) (execStart on none) :=
        .pure fun _ => trivial
      refine block (hstart.seq fun _ => ?_)
      exact rounds (test hcall c hc) (scope body hbody) (step hcall _ next hnext) _
  | .for (some first) c next body _, h => by
      obtain ⟨hclauses, hbody⟩ := ShortTexts.append_iff.mp h
      obtain ⟨hfc, hnext⟩ := ShortTexts.append_iff.mp hclauses
      obtain ⟨hfirst, hc⟩ := ShortTexts.append_iff.mp hfc
      unfold execStmt
      refine block ((start hcall first hfirst).seq fun _ => ?_)
      exact rounds (test hcall c hc) (scope body hbody) (step hcall _ next hnext) _
  | .forOf kind target e body loc, h => by
      obtain ⟨he, hbody⟩ := ShortTexts.append_iff.mp h
      rw [execStmt]
      refine (expr hcall e he).bind fun source => (elementsOf source).bind fun items => ?_
      refine (forEach (fun item => block ?_) items.toList).under
        fun hknown item hitem => hknown.2 item (Array.mem_toList_iff.mp hitem)
      exact (bindTarget kind target id).bind fun _ => (scope body hbody).weaken
  | .break _, _ => by
      rw [execStmt]
      exact .pure fun _ => trivial
  | .continue _, _ => by
      rw [execStmt]
      exact .pure fun _ => trivial
  | .throw e _, h => by
      rw [execStmt]
      exact (expr hcall e h).bind fun value => (look _).bind fun text => .raise _ _
  | .block body _, h => by
      rw [execStmt]
      exact scope body h
  | .expr e _, h => by
      rw [execStmt]
      exact (expr hcall e h).bind fun _ => .pure fun _ => trivial
  | .capture line, _ => by
      rw [execStmt]
      exact (Upkeep.Keeps.capture _ line fun _ => trivial).bind fun _ => .pure fun _ => trivial

theorem each : ∀ body : List Stmt, ShortTexts (texts body) →
    stringUpkeep.Keeps True Completion.Short (execEach on body)
  | [], _ => by
      rw [execEach]
      exact .pure fun _ => trivial
  | first :: rest, h => by
      obtain ⟨hfirst, hrest⟩ := ShortTexts.append_iff.mp h
      rw [execEach]
      refine (stmt first hfirst).bind fun completion => ?_
      cases completion with
      | normal =>
          refine (Upkeep.Keeps.complete first rest fun _ _ => trivial).bind fun _ => ?_
          exact (each rest hrest).weaken
      | _ => exact .pure And.right

theorem scope : ∀ body : List Stmt, ShortTexts (texts body) →
    stringUpkeep.Keeps True Completion.Short (execBlock on body)
  | body, h => by
      rw [execBlock]
      exact block ((hoistAll body h).seq fun _ => each body h)
end

theorem stmts (body : List Stmt) (h : ShortTexts (texts body)) :
    stringUpkeep.Keeps True Completion.Short (execStmts on body) :=
  (hoistAll body h).seq fun _ => each hcall body h

/-! ## Calls -/

omit hcall in
theorem frame {α : Type} {good : α → Prop} {m : Eval α} (name : String) (parent : Nat)
    (h : stringUpkeep.Keeps known good m) :
    stringUpkeep.Keeps known good (Eval.frame name parent m) :=
  Upkeep.Keeps.seq (changeEnv fun _ _ henv => henv.enterCall name parent)
    fun _ => h.leaving fun _ henv => Environment.Stores.leaveCall henv

/-- The body of a closure, behind the bindings of its parameters. -/
theorem closureBody (closure : Closure) (args : List Value)
    (h : ShortTexts (functionTexts closure.function)) :
    stringUpkeep.Keeps (∀ arg ∈ args, arg.Short) Completion.Short (callBody on closure args) := by
  rw [functionTexts_eq] at h
  refine (changeEnv fun hargs env henv => ?_).bind fun _ => (stmts hcall _ h).weaken
  refine .foldl _ (fun entry _ env henv => henv.declare _ _ ?_) henv
  exact Builtin.short_argument hargs entry.2

theorem closureCall (closure : Closure) (args : List Value) (loc : Location)
    (h : ShortTexts (functionTexts closure.function)) :
    KeepsShort (∀ arg ∈ args, arg.Short) (callClosure on closure args loc) := by
  rw [callClosure_eq]
  have hcalling : stringUpkeep.Keeps True (fun _ => True) Eval.calling :=
    fun s _ => .recorded s fun _ => trivial
  refine hcalling.seq fun depth => ?_
  split
  · exact .raise _ _
  · refine (frame _ _ (closureBody hcall closure args h)).bind fun completion => .pure ?_
    exact fun hknown => hknown.2.result

end Expressions

theorem callWithin (names : List String) (bound : Nat) :
    ShortCalls (StepTrace.callWithin names bound) := by
  induction bound with
  | zero => exact fun _ _ _ _ => .stop _
  | succ bound ih =>
      intro f args callee loc
      unfold StepTrace.callWithin
      cases f with
      | function place =>
          refine .closureAt (.raise _ _) fun closure hclosure => ?_
          exact closureCall ih closure args loc hclosure
      | native f => exact nativeCall ih f args
      | _ => exact .raise _ _

/-- A program with short literals leaves all values short, as long as those are that it makes
without a check. -/
theorem program (names : List String) (bound : Nat) (program : Program)
    (h : ShortTexts (texts program)) :
    stringUpkeep.Keeps True (fun _ => True) (execProgram names bound program) := by
  have hcall := callWithin names bound
  exact frame _ _ ((stmts hcall program h).bind fun _ => .pure fun _ => trivial)

end KeepsShort

end StepTrace
