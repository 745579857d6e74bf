import StepTrace.Eval.Program

/-!
# Bound names

A program binds names by its declarations, by the heads of its `for` loops, by its function
declarations and by the parameters of its functions (`boundNames`). A run binds no other
names, besides those that are bound before it begins: every change of the environment that
a run makes is one that binds only given names (`Environment.BindsOnly`).

* `Confined`: what is known of a tree whose captures and bound names are known.
* `Environment.Binds`: some scope binds the name, whether or not it can be seen.
-/

namespace StepTrace

namespace Syntax

mutual
/-- The names that an expression binds, which only its functions do. -/
def exprNames : Expr → List String
  | .number _ _ | .bigint _ _ | .string _ _ | .bool _ _ | .null _ | .variable _ _ => []
  | .array es _ => elementNames es
  | .object fs _ => fieldNames fs
  | .binary _ a b _ => exprNames a ++ exprNames b
  | .unary _ a _ => exprNames a
  | .update _ p _ => placeNames p
  | .conditional c t f _ => exprNames c ++ exprNames t ++ exprNames f
  | .assign t v _ => targetNames t ++ exprNames v
  | .compound _ p v _ => placeNames p ++ exprNames v
  | .call f args _ => exprNames f ++ elementNames args
  | .construct f args _ => exprNames f ++ elementNames args
  | .index a k _ => exprNames a ++ exprNames k
  | .member a _ _ => exprNames a
  | .function f _ => functionNames f
  | .await a _ => exprNames a

/-- The names that elements bind. -/
def elementNames : List Element → List String
  | [] => []
  | .item e :: rest => exprNames e ++ elementNames rest
  | .spread e _ :: rest => exprNames e ++ elementNames rest

/-- The names that the values of fields bind. -/
def fieldNames : List (String × Expr) → List String
  | [] => []
  | (_, e) :: rest => exprNames e ++ fieldNames rest

/-- The names that the expressions in a place bind. -/
def placeNames : Place → List String
  | .variable _ _ => []
  | .index a k _ => exprNames a ++ exprNames k
  | .member a _ _ => exprNames a

/-- The names that the expressions in places bind. -/
def placesNames : List Place → List String
  | [] => []
  | p :: rest => placeNames p ++ placesNames rest

/-- The names that the expressions in a target bind. -/
def targetNames : Target → List String
  | .single p => placeNames p
  | .list ps _ => placesNames ps

/-- The names that a function binds when it is called: its parameters and those of its
body. -/
def functionNames : Function → List String
  | .mk _ params body _ _ _ => params ++ boundNames body

/-- The names that the bindings of a declaration bind. -/
def declaratorNames : List Declarator → List String
  | [] => []
  | .mk target none :: rest => target.names ++ declaratorNames rest
  | .mk target (some e) :: rest => target.names ++ (exprNames e ++ declaratorNames rest)

/-- The names that the first clause of a loop binds. -/
def startNames : ForStart → List String
  | .declare _ ds _ => declaratorNames ds
  | .expr e _ => exprNames e

/-- The names that an expression binds that may be missing. -/
def optionalNames : Option Expr → List String
  | none => []
  | some e => exprNames e

/-- The names that a statement binds. -/
def stmtNames : Stmt → List String
  | .function f _ => f.name.toList ++ functionNames f
  | .declare _ ds _ => declaratorNames ds
  | .return e _ => optionalNames e
  | .branch c t none _ => exprNames c ++ boundNames t
  | .branch c t (some f) _ => exprNames c ++ boundNames t ++ boundNames f
  | .while c body _ => exprNames c ++ boundNames body
  | .doWhile body c _ => boundNames body ++ exprNames c
  | .for none c i body _ => optionalNames c ++ optionalNames i ++ boundNames body
  | .for (some s) c i body _ =>
    startNames s ++ optionalNames c ++ optionalNames i ++ boundNames body
  | .forOf _ target e body _ => target.names ++ (exprNames e ++ boundNames body)
  | .break _ => []
  | .continue _ => []
  | .throw e _ => exprNames e
  | .block body _ => boundNames body
  | .expr e _ => exprNames e
  | .capture _ => []

/-- The names that statements bind. -/
def boundNames : List Stmt → List String
  | [] => []
  | stmt :: rest => stmtNames stmt ++ boundNames rest
end

theorem functionNames_eq (f : Function) : functionNames f = f.params ++ boundNames f.body := by
  cases f with | mk => rfl

theorem declarator_names_subset (ds : List Declarator) :
    ∀ name ∈ ds.flatMap Declarator.names, name ∈ declaratorNames ds := by
  induction ds with
  | nil => simp
  | cons d rest ih =>
      obtain ⟨target, value⟩ := d
      intro name hname
      rw [List.flatMap_cons, List.mem_append] at hname
      cases value with
      | none =>
          rw [declaratorNames, List.mem_append]
          exact hname.imp id (ih name)
      | some e =>
          rw [declaratorNames, List.mem_append, List.mem_append]
          exact hname.imp id fun h => Or.inr (ih name h)

/-- The names that a loop binds anew in every round are names that its first clause
binds. -/
theorem roundNames_subset (first : ForStart) :
    ∀ name ∈ ForStart.roundNames (some first), name ∈ startNames first := by
  cases first with
  | expr e l => simp [ForStart.roundNames]
  | declare kind ds l =>
      cases kind with
      | constDecl => simp [ForStart.roundNames]
      | varDecl => simp [ForStart.roundNames]
      | letDecl => exact declarator_names_subset ds

end Syntax

/-! ## Trees with known captures and names -/

/-- The captures of a tree are on lines with the one property and the names that it binds
have the other property. -/
structure Confined (Marked : Nat → Prop) (Named : String → Prop) (lines : List Nat)
    (names : List String) : Prop where
  lines : ∀ line ∈ lines, Marked line
  names : ∀ name ∈ names, Named name

namespace Confined

variable {Marked : Nat → Prop} {Named : String → Prop} {lines lines' : List Nat}
  {names names' : List String}

theorem nil : Confined Marked Named [] [] := by
  constructor <;> simp

theorem append_iff : Confined Marked Named (lines ++ lines') (names ++ names') ↔
    Confined Marked Named lines names ∧ Confined Marked Named lines' names' := by
  constructor
  · intro h
    obtain ⟨hlines, hlines'⟩ := List.forall_mem_append.mp h.lines
    obtain ⟨hnames, hnames'⟩ := List.forall_mem_append.mp h.names
    exact ⟨⟨hlines, hnames⟩, ⟨hlines', hnames'⟩⟩
  · rintro ⟨h, h'⟩
    exact ⟨List.forall_mem_append.mpr ⟨h.lines, h'.lines⟩,
      List.forall_mem_append.mpr ⟨h.names, h'.names⟩⟩

/-- A tree that binds names of its own besides those of the trees in it. -/
theorem binding_iff : Confined Marked Named lines (names' ++ names) ↔
    (∀ name ∈ names', Named name) ∧ Confined Marked Named lines names := by
  constructor
  · intro h
    obtain ⟨hnames', hnames⟩ := List.forall_mem_append.mp h.names
    exact ⟨hnames', h.lines, hnames⟩
  · rintro ⟨hnames', h⟩
    exact ⟨h.lines, List.forall_mem_append.mpr ⟨hnames', h.names⟩⟩

end Confined

/-! ## Environments -/

/-- Some scope of the environment binds the name. -/
def Environment.Binds (env : Environment) (name : String) : Prop :=
  ∃ i, (env.scopes.binding? name i).isSome

/-- Names that the change binds and that were not bound before have the property. -/
def Environment.BindsOnly (Named : String → Prop) (change : Environment → Environment) : Prop :=
  ∀ env name, (change env).Binds name → env.Binds name ∨ Named name

theorem Scope.binding_declare (scope : Scope) (name : String) (value : Value) (isConst : Bool)
    {x : String} (h : ((scope.declare name value isConst).bindings[x]?).isSome) :
    (scope.bindings[x]?).isSome ∨ x = name := by
  by_cases hx : name = x
  · exact Or.inr hx.symm
  · have hother : (scope.bindings.insert name ⟨value, isConst⟩)[x]? = scope.bindings[x]? := by
      simp [Std.TreeMap.getElem?_insert, hx]
    rw [Scope.declare, hother] at h
    exact Or.inl h

namespace Scopes

variable {scopes : Scopes} {name : String} {i : Nat}

theorem binding?_declare {value : Value} {isConst : Bool} {x : String} {j : Nat}
    (h : ((scopes.declare i name value isConst).binding? x j).isSome) :
    (scopes.binding? x j).isSome ∨ x = name := by
  unfold binding? declare at h
  rw [Array.getElem?_modify] at h
  unfold binding?
  by_cases hj : i = j
  · rw [if_pos hj] at h
    cases hscope : scopes[j]? with
    | none =>
        rw [hscope] at h
        simp at h
    | some scope =>
        rw [hscope] at h
        exact scope.binding_declare name value isConst h
  · rw [if_neg hj] at h
    exact Or.inl h

theorem binding?_push_blank {parent : Option Nat} {isFunction : Bool} {x : String} {j : Nat}
    (h : (Scopes.binding? (scopes.push (.blank parent isFunction)) x j).isSome) :
    (scopes.binding? x j).isSome := by
  unfold binding? at h ⊢
  rw [Array.getElem?_push] at h
  by_cases hj : j = scopes.size
  · rw [if_pos hj] at h
    simp [Scope.blank] at h
  · rwa [if_neg hj] at h

theorem nearest?_spec {p : Scope → Bool} {j : Nat} (h : scopes.nearest? p i = some j) :
    ∃ scope, scopes[j]? = some scope ∧ p scope = true := by
  fun_induction nearest? scopes p i with
  | case1 i hnone => cases h
  | case2 i scope hscope hp =>
      cases h
      exact ⟨scope, hscope, hp⟩
  | case3 i scope hscope hp hparent => cases h
  | case4 i scope hscope hp parent hparent hlt ih => exact ih h
  | case5 i scope hscope hp parent hparent hlt => cases h

theorem binding?_holder {j : Nat} (h : scopes.holder? name i = some j) :
    (scopes.binding? name j).isSome := by
  obtain ⟨scope, hscope, hbinds⟩ := nearest?_spec h
  rw [binding?, hscope, Option.bind_some, ← Std.TreeMap.contains_eq_isSome_getElem?]
  exact hbinds

end Scopes

namespace Environment

variable {Named : String → Prop} {env : Environment} {name : String}

theorem binds_of_lookup? {value : Value} (h : env.lookup? name = some value) :
    env.Binds name := by
  unfold lookup? Scopes.lookup? at h
  obtain ⟨j, -, hvalue⟩ := Option.bind_eq_some_iff.mp h
  obtain ⟨binding, hbinding, -⟩ := Option.map_eq_some_iff.mp hvalue
  exact ⟨j, by rw [hbinding]; rfl⟩

theorem binds_of_assignee {j : Nat} (h : env.assignee name = .ok j) : env.Binds name := by
  unfold assignee Scopes.assignee at h
  split at h
  · cases h
  · rename_i k hholder
    exact ⟨k, Scopes.binding?_holder hholder⟩

theorem Binds.of_declareIn {i : Nat} {value : Value} {isConst : Bool} {x : String}
    (h : (env.declareIn i name value isConst).Binds x) : env.Binds x ∨ x = name := by
  obtain ⟨j, hj⟩ := h
  exact (Scopes.binding?_declare hj).imp (fun h => ⟨j, h⟩) id

/-- A new binding where the name is bound already. -/
theorem Binds.of_store {i : Nat} {value : Value} {x : String} (hname : env.Binds name)
    (h : (env.store i name value).Binds x) : env.Binds x := by
  rcases h.of_declareIn with h | rfl
  · exact h
  · exact hname

namespace BindsOnly

theorem comp {change next : Environment → Environment} (hnext : BindsOnly Named next)
    (hchange : BindsOnly Named change) : BindsOnly Named fun env => next (change env) := by
  intro env name h
  rcases hnext _ _ h with h | h
  · exact hchange _ _ h
  · exact Or.inr h

/-- A change that binds the one name somewhere. -/
theorem declareIn (scope : Environment → Nat) (value : Value) (isConst : Bool)
    (hname : Named name) :
    BindsOnly Named fun env => env.declareIn (scope env) name value isConst := by
  intro env x h
  rcases h.of_declareIn with h | rfl
  · exact Or.inl h
  · exact Or.inr hname

theorem declare (value : Value) (isConst : Bool) (hname : Named name) :
    BindsOnly Named (·.declare name value isConst) :=
  declareIn Environment.current value isConst hname

/-- One change after the other, for the members of a list. -/
theorem foldl {α : Type} {change : Environment → α → Environment} (xs : List α)
    (h : ∀ x ∈ xs, BindsOnly Named (change · x)) :
    BindsOnly Named fun env => xs.foldl change env := by
  induction xs with
  | nil => exact fun env name h => Or.inl h
  | cons x rest ih =>
      obtain ⟨hx, hrest⟩ := List.forall_mem_cons.mp h
      exact (ih hrest).comp hx

theorem enterBlock : BindsOnly Named Environment.enterBlock := by
  rintro ⟨scopes, frames⟩ name ⟨i, h⟩
  cases frames with
  | nil => exact Or.inl ⟨i, h⟩
  | cons frame rest => exact Or.inl ⟨i, Scopes.binding?_push_blank h⟩

theorem enterCall (function : String) (parent : Nat) :
    BindsOnly Named (·.enterCall function parent) := by
  rintro env name ⟨i, h⟩
  exact Or.inl ⟨i, Scopes.binding?_push_blank h⟩

theorem leaveCall : BindsOnly Named Environment.leaveCall :=
  fun _ _ h => Or.inl h

theorem moveTo (i : Nat) : BindsOnly Named (·.moveTo i) := by
  rintro ⟨scopes, frames⟩ name h
  cases frames with
  | nil => exact Or.inl h
  | cons frame rest => exact Or.inl h

theorem leaveBlock : BindsOnly Named Environment.leaveBlock := by
  intro env name h
  unfold Environment.leaveBlock at h
  split at h
  · exact Or.inl h
  · exact moveTo _ env name h

theorem nextRound {names : List String} (hnames : ∀ name ∈ names, Named name) :
    BindsOnly Named (StepTrace.nextRound names) := by
  intro env x h
  unfold StepTrace.nextRound at h
  have hdeclared : BindsOnly Named fun after =>
      (names.map fun name => (name, (env.lookup? name).getD .undefined)).foldl
        (fun env (entry : String × Value) => env.declare entry.1 entry.2 false) after := by
    refine foldl _ fun entry hentry => ?_
    obtain ⟨name, hname, rfl⟩ := List.mem_map.mp hentry
    exact declare _ false (hnames name hname)
  exact (hdeclared.comp (enterBlock.comp leaveBlock)) env x h

end BindsOnly

end Environment

end StepTrace
