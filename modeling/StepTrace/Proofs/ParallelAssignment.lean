import Mathlib.Data.Fin.VecNotation
import Mathlib.Data.List.FinRange
import StepTrace.Proofs.StateCells

/-!
# Assignment to a list of places

The values of a list are all there before the first of the places is written. So an assignment of
a list to a list of places is parallel: every place gets the value that its source had before,
though places and sources may be the same variables or elements of the same array. The places are
found one after the other between the writes, and are the intended ones as long as nothing that is
read on the way to a place is written.

* `assignEach_puts`: the writes, one after the other.
* `exists_assigned`: an assignment to pairwise different cells.
* `parallel_assignment`: variables, and elements of one array.
-/

namespace StepTrace

open Syntax
open State (Alike Puts)

variable {on : Setting} {s t : State} {loc : Location} {name : String} {value : Value} {n : Nat}

/-! ## Paths -/

/-- The expression is a number, a variable, or an element of an array. In the state it has the
value, and the cells are read on the way. -/
inductive Reads (s : State) : Expr → Value → List Cell → Prop
  | number (x : Float) (loc : Location) : Reads s (.number x loc) (.number x) []
  | binding {name : String} {loc : Location} {scope : Nat} {value : Value}
      (hholder : s.env.scopes.holder? name s.env.current = some scope)
      (hcontent : s.content? (.binding scope name) = some value) :
      Reads s (.variable name loc) value [.binding scope name]
  | element {container key : Expr} {loc : Location} {array position : Nat} {k value : Value}
      {cells cells' : List Cell} (hcontainer : Reads s container (.array array) cells)
      (hkey : Reads s key k cells') (hposition : k.position? = some position)
      (hcontent : s.content? (.element array position) = some value) :
      Reads s (.index container key loc) value (.element array position :: cells ++ cells')

namespace Reads

variable {e : Expr} {cells : List Cell}

theorem eval (h : Reads s e value cells) (on : Setting) : evalExpr on e s = .done value s := by
  induction h with
  | number x loc => rfl
  | @binding name loc scope value hholder hcontent =>
      have hlookup : s.env.lookup? name = some value := by
        change (s.env.scopes.holder? name s.env.current).bind _ = _
        rw [hholder]
        exact hcontent
      exact Eval.lookup_eq_done.mpr ⟨rfl, hlookup⟩
  | @element container key loc array position k value _ _ _ _ hposition hcontent ih ih' =>
      rw [evalExpr, Eval.bind_of_done ih, Eval.bind_of_done ih']
      refine Eval.consultAt_eq_done.mpr ⟨rfl, ?_⟩
      rw [indexed_of_position hposition, Value.item]
      exact congrArg (fun found : Option Value => Except.ok (found.getD .undefined)) hcontent

theorem isSome_of_mem (h : Reads s e value cells) : ∀ cell ∈ cells, (s.content? cell).isSome := by
  induction h with
  | number x loc => simp
  | binding _ hcontent => simp [hcontent]
  | element _ _ _ hcontent ih ih' =>
      refine List.forall_mem_append.mpr ⟨List.forall_mem_cons.mpr ⟨?_, ih⟩, ih'⟩
      simp [hcontent]

/-- As long as nothing is written that it reads, an expression has the same value. -/
theorem stays (h : Reads s e value cells) (halike : Alike n s t)
    (hsame : ∀ cell ∈ cells, t.content? cell = s.content? cell) : Reads t e value cells := by
  induction h with
  | number x loc => exact .number x loc
  | binding hholder hcontent =>
      refine .binding ((halike.holder? _).trans hholder) ?_
      rw [hsame _ List.mem_cons_self, hcontent]
  | element _ _ hposition hcontent ih ih' =>
      refine .element (ih fun cell hcell => hsame cell ?_) (ih' fun cell hcell => hsame cell ?_)
        hposition ?_
      · exact List.mem_append_left _ (List.mem_cons_of_mem _ hcell)
      · exact List.mem_append_right _ hcell
      · rw [hsame _ (List.mem_append_left _ List.mem_cons_self), hcontent]

end Reads

/-- The running code sees the name in the scope, and it is not constant there. -/
structure Environment.Assignable (env : Environment) (name : String) (scope : Nat) : Prop where
  holder : env.scopes.holder? name env.current = some scope
  inconstant : ∃ value, env.scopes.binding? name scope = some ⟨value, false⟩

theorem Environment.Assignable.assignee {env : Environment} {scope : Nat}
    (h : env.Assignable name scope) : env.assignee name = .ok scope := by
  obtain ⟨value, hbinding⟩ := h.inconstant
  unfold Environment.assignee Scopes.assignee
  rw [h.holder]
  change (if _ then _ else _) = _
  rw [hbinding, if_neg (by simp)]

/-- The place is the cell, in the state and in every other one as long as none of the further cells
is written. -/
inductive LeadsTo (s : State) : Place → Cell → List Cell → Prop
  | binding {name : String} {loc : Location} {scope : Nat} (h : s.env.Assignable name scope) :
      LeadsTo s (.variable name loc) (.binding scope name) []
  | element {container key : Expr} {loc : Location} {array position : Nat} {k : Value}
      {cells cells' : List Cell} (hcontainer : Reads s container (.array array) cells)
      (hkey : Reads s key k cells') (hposition : k.position? = some position)
      (hin : position < (s.heap.items array).size) :
      LeadsTo s (.index container key loc) (.element array position) (cells ++ cells')

namespace LeadsTo

variable {place : Place} {cell : Cell} {cells : List Cell}

theorem isSome_content? (h : LeadsTo s place cell cells) : (s.content? cell).isSome := by
  cases h with
  | binding h =>
      obtain ⟨value, hbinding⟩ := h.inconstant
      simp [State.content?, hbinding]
  | element _ _ _ hin => simpa [State.content?] using hin

theorem isSome_of_mem (h : LeadsTo s place cell cells) :
    ∀ c ∈ cells, (s.content? c).isSome := by
  cases h with
  | binding => simp
  | element hcontainer hkey =>
      exact List.forall_mem_append.mpr ⟨hcontainer.isSome_of_mem, hkey.isSome_of_mem⟩

theorem stays (h : LeadsTo s place cell cells) (halike : Alike n s t)
    (hsame : ∀ c ∈ cells, t.content? c = s.content? c) : LeadsTo t place cell cells := by
  cases h with
  | @binding name _ scope h =>
      obtain ⟨value, hbinding⟩ := h.inconstant
      have hkept := halike.bindings name scope
      rw [hbinding, Option.map_some] at hkept
      obtain ⟨⟨value', isConst⟩, hbinding', hconst⟩ := Option.map_eq_some_iff.mp hkept
      obtain rfl : isConst = false := hconst
      exact .binding ⟨(halike.holder? name).trans h.holder, value', hbinding'⟩
  | @element _ _ _ array position _ _ _ hcontainer hkey hposition hin =>
      have hplace := State.lt_size_of_lt_items hin
      refine .element (hcontainer.stays halike fun c hc => hsame c ?_)
        (hkey.stays halike fun c hc => hsame c ?_) hposition ?_
      · exact List.mem_append_left _ hc
      · exact List.mem_append_right _ hc
      · rwa [halike.lengths array hplace]

/-- A write to the place is a write to the cell. -/
theorem exists_puts (h : LeadsTo s place cell cells) (on : Setting) (loc : Location)
    (value : Value) : ∃ slot t, evalPlace on place s = .done slot s ∧
      slot.write loc value s = .done () t ∧ s.Puts cell value t := by
  cases h with
  | @binding name _ scope h =>
      obtain ⟨old, hbinding⟩ := h.inconstant
      refine ⟨.variable name, _, rfl, ?_, State.puts_store hbinding rfl value⟩
      change Eval.assign loc name value s = _
      rw [Eval.assign_apply, h.assignee]
  | @element container key _ array position k _ _ hcontainer hkey hposition hin =>
      refine ⟨.index (.array array) k, _, ?_, ?_, State.puts_setIfInBounds hin value⟩
      · rw [evalPlace, Eval.bind_of_done (hcontainer.eval on), Eval.bind_of_done (hkey.eval on)]
        rfl
      · rw [write_of_position hposition, if_pos (Or.inl hin)]
        have hwrite : (s.heap.onArray array fun items => withElement items position value) =
            s.heap.onArray array fun items => items.setIfInBounds position value :=
          onArray_congr (withElement_of_lt hin)
        simp only [State.changeHeap, hwrite]

end LeadsTo

/-! ## Assignment -/

/-- What an assignment to a list of places does for one of them: the value of the source is put
into the cell. -/
structure Move where
  place : Place
  cell : Cell
  source : Expr
  value : Value

/-- In the state, the places of the moves are different cells, none of which is read to find a
place, and the sources have the values. -/
structure Parallel (s : State) (moves : List Move) : Prop where
  place : ∀ move ∈ moves, ∃ cells, LeadsTo s move.place move.cell cells ∧
    ∀ other ∈ moves, other.cell ∉ cells
  source : ∀ move ∈ moves, ∃ cells, Reads s move.source move.value cells
  distinct : (moves.map Move.cell).Nodup

/-- The moves have been made at once, and so many new arrays. Nothing else has changed. -/
structure Assigned (new : Nat) (s : State) (moves : List Move) (t : State) : Prop where
  alike : Alike new s t
  written : ∀ move ∈ moves, t.content? move.cell = some move.value
  others : ∀ cell, (s.content? cell).isSome → cell ∉ moves.map Move.cell →
    t.content? cell = s.content? cell

/-- The places are written one after the other. A write neither changes a cell that was written
before nor leads another place astray. -/
theorem assignEach_assigned (on : Setting) (loc : Location) {moves : List Move}
    (hplace : ∀ move ∈ moves, ∃ cells, LeadsTo s move.place move.cell cells ∧
      ∀ other ∈ moves, other.cell ∉ cells)
    (hdistinct : (moves.map Move.cell).Nodup) :
    ∃ t, assignEach on loc (moves.map Move.place) (moves.map Move.value) s = .done () t ∧
      Assigned 0 s moves t := by
  induction moves generalizing s with
  | nil => exact ⟨s, rfl, .refl s, by simp, fun _ _ _ => rfl⟩
  | cons move rest ih =>
      obtain ⟨⟨cells, hleads, -⟩, hrest⟩ := List.forall_mem_cons.mp hplace
      rw [List.map_cons, List.nodup_cons] at hdistinct
      obtain ⟨hnew, hdistinct⟩ := hdistinct
      obtain ⟨slot, s', hslot, hwrite, hputs⟩ := hleads.exists_puts on loc move.value
      have hplace' : ∀ next ∈ rest, ∃ cells, LeadsTo s' next.place next.cell cells ∧
          ∀ other ∈ rest, other.cell ∉ cells := by
        intro next hnext
        obtain ⟨cells, hleads, hapart⟩ := hrest next hnext
        obtain ⟨hfirst, hapart⟩ := List.forall_mem_cons.mp hapart
        refine ⟨cells, hleads.stays hputs.alike fun cell hcell => ?_, hapart⟩
        rw [hputs.content, if_neg (ne_of_mem_of_not_mem hcell hfirst)]
      obtain ⟨t, hrun, hassigned⟩ := ih hplace' hdistinct
      have hkept : ∀ cell, (s.content? cell).isSome → cell ∉ rest.map Move.cell →
          t.content? cell = if cell = move.cell then some move.value else s.content? cell := by
        intro cell hsome hcell
        have hsome' : (s'.content? cell).isSome := by
          rw [hputs.content]
          split
          · rfl
          · exact hsome
        rw [hassigned.others cell hsome' hcell, hputs.content]
      refine ⟨t, ?_, hputs.alike.trans hassigned.alike, ?_, ?_⟩
      · rw [List.map_cons, List.map_cons, assignEach, Eval.bind_of_done hslot,
          Eval.bind_of_done hwrite]
        exact hrun
      · refine List.forall_mem_cons.mpr ⟨?_, hassigned.written⟩
        rw [hkept move.cell hleads.isSome_content? hnew, if_pos rfl]
      · intro cell hsome hcell
        rw [List.map_cons, List.mem_cons, not_or] at hcell
        rw [hkept cell hsome hcell.2, if_neg hcell.1]

/-- The elements of a list are evaluated one after the other, before any place is written. -/
theorem evalElements_reads (on : Setting) {moves : List Move}
    (h : ∀ move ∈ moves, ∃ cells, Reads s move.source move.value cells) :
    evalElements on (moves.map fun move => .item move.source) s =
      .done (moves.map Move.value) s := by
  induction moves with
  | nil => rfl
  | cons move rest ih =>
      obtain ⟨⟨cells, hreads⟩, hrest⟩ := List.forall_mem_cons.mp h
      rw [List.map_cons, List.map_cons, evalElements, Eval.bind_of_done (hreads.eval on),
        Eval.bind_of_done (ih hrest)]
      rfl

theorem firstElements_array {heap : Heap} {array : Nat} {items : List Value}
    (h : heap.items array = items.toArray) :
    Value.firstElements heap (.array array) items.length = .ok items := by
  change Except.ok (resize (heap.items array) items.length).toList = _
  rw [h, resize, if_neg (by simp)]
  simp

/-- A statement that assigns the list of the sources to the list of the places. -/
def assignment (places : List Place) (sources : List Expr) (loc loc' loc'' loc₀ : Location) :
    Stmt :=
  .expr (.assign (.list places loc) (.array (sources.map .item) loc') loc'') loc₀

/-- The assignment makes the moves at once. The list of the sources stays as a new array. -/
theorem exists_assigned (on : Setting) (loc loc' loc'' loc₀ : Location) {moves : List Move}
    (h : Parallel s moves) :
    ∃ t, execStmt on
        (assignment (moves.map Move.place) (moves.map Move.source) loc loc' loc'' loc₀) s =
          .done .normal t ∧ Assigned 1 s moves t := by
  obtain ⟨s', hnew, halike, hcontent, hitems⟩ : ∃ s',
      Eval.newUnchecked (moves.map Move.value).toArray s = .done (.array s.heap.arrays.size) s' ∧
      Alike 1 s s' ∧ (∀ cell, (s.content? cell).isSome → s'.content? cell = s.content? cell) ∧
      s'.heap.items s.heap.arrays.size = (moves.map Move.value).toArray :=
    ⟨_, Eval.newUnchecked_apply _ s, State.alike_newUnchecked s _,
      fun _ => State.content?_newUnchecked s _, Heap.items_addArray _ _⟩
  have hplace : ∀ move ∈ moves, ∃ cells, LeadsTo s' move.place move.cell cells ∧
      ∀ other ∈ moves, other.cell ∉ cells := by
    intro move hmove
    obtain ⟨cells, hleads, hapart⟩ := h.place move hmove
    refine ⟨cells, hleads.stays halike fun cell hcell => ?_, hapart⟩
    exact hcontent cell (hleads.isSome_of_mem cell hcell)
  obtain ⟨t, hrun, hassigned⟩ := assignEach_assigned on loc'' hplace h.distinct
  have hsources : evalElements on ((moves.map Move.source).map .item) s =
      .done (moves.map Move.value) s := by
    rw [List.map_map]
    exact evalElements_reads on h.source
  have hfirst := firstElements_array hitems
  refine ⟨t, ?_, halike.trans hassigned.alike, hassigned.written, fun cell hsome hcell => ?_⟩
  · have hvalue : evalExpr on (.array ((moves.map Move.source).map .item) loc') s =
        .done (.array s.heap.arrays.size) s' := by
      rw [evalExpr, Eval.bind_of_done hsources, hnew]
    rw [List.length_map] at hfirst
    have hconsult : Eval.consultAt loc'' (fun heap => Value.firstElements heap
        (.array s.heap.arrays.size) (moves.map Move.place).length) s' =
          .done (moves.map Move.value) s' :=
      Eval.consultAt_eq_done.mpr ⟨rfl, by rw [List.length_map, hfirst]⟩
    have heval : evalExpr on (.assign (.list (moves.map Move.place) loc)
        (.array ((moves.map Move.source).map .item) loc') loc'') s =
          .done (.array s.heap.arrays.size) t := by
      rw [evalExpr, Eval.bind_of_done hvalue, Eval.bind_of_done hconsult, Eval.bind_of_done hrun]
      rfl
    rw [assignment, execStmt, Eval.bind_of_done heval]
    rfl
  · have hsome' : (s'.content? cell).isSome := by rwa [hcontent cell hsome]
    rw [hassigned.others cell hsome' hcell, hcontent cell hsome]

/-! ## Variables and elements -/

/-- The place is the variable. -/
inductive IsVariable (name : String) : Place → Prop
  | mk (loc : Location) : IsVariable name (.variable name loc)

theorem IsVariable.leadsTo {place : Place} {scope : Nat} (h : IsVariable name place)
    (hassignable : s.env.Assignable name scope) : LeadsTo s place (.binding scope name) [] := by
  cases h with
  | mk loc => exact .binding hassignable

theorem IsVariable.reads {place : Place} {scope : Nat} (h : IsVariable name place)
    (hholder : s.env.scopes.holder? name s.env.current = some scope)
    (hcontent : s.content? (.binding scope name) = some value) :
    Reads s place.expr value [.binding scope name] := by
  cases h with
  | mk loc => exact .binding hholder hcontent

/-- The expression is a number or a variable, and in the state its value is the position. -/
inductive Indexes (s : State) (position : Nat) : Expr → Prop
  | number {x : Float} (loc : Location) (hposition : (Value.number x).position? = some position) :
      Indexes s position (.number x loc)
  | held {name : String} {key : Value} (loc : Location)
      (hlookup : s.env.lookup? name = some key) (hposition : key.position? = some position) :
      Indexes s position (.variable name loc)

/-- The place is written as an element of an array that a variable holds. In the state it is the
element of the array at the position. -/
inductive ElementAt (s : State) (array position : Nat) : Place → Prop
  | mk {name : String} {key : Expr} (loc loc' : Location)
      (hlookup : s.env.lookup? name = some (.array array)) (hkey : Indexes s position key)
      (hin : position < (s.heap.items array).size) :
      ElementAt s array position (.index (.variable name loc) key loc')

/-- The states are the same but for the contents of the cells and one new array. -/
structure State.SameBut (s t : State) (cells : Fin n → Cell) : Prop where
  alike : Alike 1 s t
  others : ∀ cell, (s.content? cell).isSome → (∀ k, cell ≠ cells k) →
    t.content? cell = s.content? cell

theorem lookup?_eq (s : State) (name : String) : s.env.lookup? name =
    (s.env.scopes.holder? name s.env.current).bind fun j => s.content? (.binding j name) :=
  rfl

/-- A variable is a binding, whatever is written. -/
theorem exists_reads (h : s.env.lookup? name = some value) (loc : Location) :
    ∃ scope, Reads s (.variable name loc) value [.binding scope name] := by
  rw [lookup?_eq] at h
  obtain ⟨scope, hholder, hcontent⟩ := Option.bind_eq_some_iff.mp h
  exact ⟨scope, .binding hholder hcontent⟩

/-- What is read is a binding. -/
def OnlyBindings (cells : List Cell) : Prop :=
  ∀ cell ∈ cells, ∀ array position, cell ≠ .element array position

theorem Indexes.exists_reads {position : Nat} {key : Expr} (h : Indexes s position key) :
    ∃ k cells, Reads s key k cells ∧ OnlyBindings cells ∧ k.position? = some position := by
  cases h with
  | number loc hposition => exact ⟨_, [], .number _ loc, by simp [OnlyBindings], hposition⟩
  | held loc hlookup hposition =>
      obtain ⟨scope, hreads⟩ := StepTrace.exists_reads hlookup loc
      exact ⟨_, _, hreads, by simp [OnlyBindings], hposition⟩

theorem ElementAt.exists_leadsTo {array position : Nat} {place : Place}
    (h : ElementAt s array position place) :
    ∃ cells, LeadsTo s place (.element array position) cells ∧ OnlyBindings cells := by
  obtain ⟨loc, loc', hlookup, hkey, hin⟩ := h
  obtain ⟨scope, hcontainer⟩ := exists_reads hlookup loc
  obtain ⟨k, cells, hreads, hbindings, hposition⟩ := hkey.exists_reads
  refine ⟨_, .element hcontainer hreads hposition hin, List.forall_mem_cons.mpr ⟨?_, hbindings⟩⟩
  simp

theorem ElementAt.exists_reads {array position : Nat} {place : Place}
    (h : ElementAt s array position place) : ∃ value cells, Reads s place.expr value cells ∧
      (s.heap.items array)[position]? = some value := by
  obtain ⟨loc, loc', hlookup, hkey, hin⟩ := h
  obtain ⟨scope, hcontainer⟩ := StepTrace.exists_reads hlookup loc
  obtain ⟨k, cells, hreads, -, hposition⟩ := hkey.exists_reads
  have hcontent := Array.getElem?_eq_getElem hin
  exact ⟨_, _, .element hcontainer hreads hposition hcontent, hcontent⟩

/-- The assignment of so many sources to as many places. -/
theorem exists_sameBut (on : Setting) (loc loc' loc'' loc₀ : Location) {places : Fin n → Place}
    {cells : Fin n → Cell} {sources : Fin n → Expr} {values : Fin n → Value}
    (hplace : ∀ k, ∃ reads, LeadsTo s (places k) (cells k) reads ∧ ∀ other, cells other ∉ reads)
    (hsource : ∀ k, ∃ reads, Reads s (sources k) (values k) reads)
    (hcells : Function.Injective cells) :
    ∃ t, execStmt on
        (assignment (List.ofFn places) (List.ofFn sources) loc loc' loc'' loc₀) s =
          .done .normal t ∧
      (∀ k, t.content? (cells k) = some (values k)) ∧ s.SameBut t cells := by
  have hparallel : Parallel s
      (List.ofFn fun k => ⟨places k, cells k, sources k, values k⟩) := by
    refine ⟨?_, ?_, ?_⟩
    · rw [List.forall_mem_ofFn_iff]
      intro k
      obtain ⟨reads, hleads, hapart⟩ := hplace k
      exact ⟨reads, hleads, List.forall_mem_ofFn_iff.mpr hapart⟩
    · rwa [List.forall_mem_ofFn_iff]
    · rw [List.map_ofFn]
      exact List.nodup_ofFn.mpr hcells
  obtain ⟨t, hrun, halike, hwritten, hothers⟩ := exists_assigned on loc loc' loc'' loc₀ hparallel
  simp only [List.map_ofFn] at hrun hothers
  refine ⟨t, hrun, List.forall_mem_ofFn_iff.mp hwritten, halike, fun cell hsome hcell => ?_⟩
  refine hothers cell hsome fun hmem => ?_
  obtain ⟨k, rfl⟩ := List.mem_ofFn.mp hmem
  exact hcell k rfl

/-- Assignment to a list of places is parallel, in any state. Variables get the values that the
variables named at the right had before. Elements of an array get those of the elements at the
right, whichever those are; for two elements that are exchanged this is a swap. -/
theorem parallel_assignment (on : Setting) (s : State) (loc loc' loc'' loc₀ : Location) (n : Nat)
    (places sources : Fin n → Place) :
    (∀ (x : Fin n → String) (f : Fin n → Fin n) (scope : Fin n → Nat),
      Function.Injective x → (∀ k, s.env.Assignable (x k) (scope k)) →
      (∀ k, IsVariable (x k) (places k)) → (∀ k, IsVariable (x (f k)) (sources k)) →
      ∃ t, execStmt on (assignment (List.ofFn places) (List.ofFn fun k => (sources k).expr)
          loc loc' loc'' loc₀) s = .done .normal t ∧
        (∀ k, t.env.lookup? (x k) = s.env.lookup? (x (f k))) ∧
        s.SameBut t fun k => .binding (scope k) (x k)) ∧
    (∀ (array : Nat) (p q : Fin n → Nat),
      Function.Injective p → (∀ k, ElementAt s array (p k) (places k)) →
      (∀ k, ElementAt s array (q k) (sources k)) →
      ∃ t, execStmt on (assignment (List.ofFn places) (List.ofFn fun k => (sources k).expr)
          loc loc' loc'' loc₀) s = .done .normal t ∧
        (∀ k, (t.heap.items array)[p k]? = (s.heap.items array)[q k]?) ∧
        s.SameBut t fun k => .element array (p k)) := by
  constructor
  · intro x f scope hx hassignable hplaces hsources
    choose value hbinding using fun k => (hassignable k).inconstant
    have hcontent : ∀ k, s.content? (.binding (scope k) (x k)) = some (value k) := by
      intro k
      rw [State.content?, hbinding, Option.map_some]
    have hplace : ∀ k, ∃ reads, LeadsTo s (places k) (.binding (scope k) (x k)) reads ∧
        ∀ other, .binding (scope other) (x other) ∉ reads := fun k =>
      ⟨[], (hplaces k).leadsTo (hassignable k), fun _ => List.not_mem_nil⟩
    have hsource : ∀ k, ∃ reads, Reads s (sources k).expr (value (f k)) reads := fun k =>
      ⟨_, (hsources k).reads (hassignable (f k)).holder (hcontent (f k))⟩
    have hcells : Function.Injective fun k => Cell.binding (scope k) (x k) := by
      intro k l hkl
      exact hx (Cell.binding.inj hkl).2
    obtain ⟨t, hrun, hwritten, hsame⟩ := exists_sameBut on loc loc' loc'' loc₀ hplace hsource hcells
    refine ⟨t, hrun, fun k => ?_, hsame⟩
    rw [lookup?_eq, lookup?_eq, hsame.alike.holder?, (hassignable k).holder,
      (hassignable (f k)).holder, Option.bind_some, Option.bind_some, hwritten, hcontent]
  · intro array p q hp hplaces hsources
    choose value reads hreads hvalue using fun k => (hsources k).exists_reads
    have hplace : ∀ k, ∃ reads, LeadsTo s (places k) (.element array (p k)) reads ∧
        ∀ other, .element array (p other) ∉ reads := by
      intro k
      obtain ⟨cells, hleads, hbindings⟩ := (hplaces k).exists_leadsTo
      exact ⟨cells, hleads, fun other hmem => hbindings _ hmem _ _ rfl⟩
    have hcells : Function.Injective fun k => Cell.element array (p k) := by
      intro k l hkl
      exact hp (Cell.element.inj hkl).2
    obtain ⟨t, hrun, hwritten, hsame⟩ :=
      exists_sameBut on loc loc' loc'' loc₀ hplace (fun k => ⟨_, hreads k⟩) hcells
    refine ⟨t, hrun, fun k => ?_, hsame⟩
    rw [hvalue]
    exact hwritten k

/-- A state with the variables `a` and `b`, and with an array in `v` and its positions in `i` and
`j`. -/
def exchangeable : State where
  env := ((((Environment.initial.declare "a" (.bool true) false).declare "b" .null false).declare
    "v" (.array 0) false).declare "i" (.number (Number.ofNat 0)) false).declare
    "j" (.number (Number.ofNat 2)) false
  heap := ⟨#[#[.bool true, .null, .string "c"]], #[], #[]⟩
  closures := #[]
  past := .of []

/-- Every variable of the root scope is seen outside of calls. -/
theorem holder?_root {env : Environment} {binding : Binding} (hframes : env.frames = [])
    (hbinding : env.scopes.binding? name 0 = some binding) :
    env.scopes.holder? name env.current = some 0 := by
  have hcurrent : env.current = 0 := by
    rw [Environment.current, hframes]
  rw [hcurrent, Scopes.holder?_eq_some_iff]
  refine ⟨Scopes.self_mem_outwards _ 0, by rw [hbinding]; rfl, fun k hk hlt => ?_⟩
  have hle := Scopes.le_of_mem_outwards hk
  omega

theorem binding?_exchangeable (name : String) : exchangeable.env.scopes.binding? name 0 =
    if name = "j" then some ⟨.number (Number.ofNat 2), false⟩
    else if name = "i" then some ⟨.number (Number.ofNat 0), false⟩
    else if name = "v" then some ⟨.array 0, false⟩
    else if name = "b" then some ⟨.null, false⟩
    else if name = "a" then some ⟨.bool true, false⟩
    else none := by
  change ((((((Scopes.root.declare 0 "a" _ _).declare 0 "b" _ _).declare 0 "v" _ _).declare 0
    "i" _ _).declare 0 "j" _ _).binding? name 0) = _
  simp [Scopes.declare, Scopes.root, Scopes.binding?, Scope.blank, Scope.declare,
    Std.TreeMap.getElem?_insert, eq_comm (a := name)]

theorem assignable_exchangeable {value : Value}
    (h : exchangeable.env.scopes.binding? name 0 = some ⟨value, false⟩) :
    exchangeable.env.Assignable name 0 :=
  ⟨holder?_root rfl h, value, h⟩

theorem lookup?_exchangeable {value : Value}
    (h : exchangeable.env.scopes.binding? name 0 = some ⟨value, false⟩) :
    exchangeable.env.lookup? name = some value := by
  rw [lookup?_eq, holder?_root rfl h, Option.bind_some, State.content?, h, Option.map_some]

/-- In the expression that exchanges two elements, the keys are the variables `i` and `j`. -/
theorem elementAt_exchangeable {n : Nat} (hn : n < 3)
    (hkey : exchangeable.env.scopes.binding? name 0 = some ⟨.number (Number.ofNat n), false⟩) :
    ElementAt exchangeable 0 n (.index (.variable "v" default) (.variable name default) default) :=
  .mk default default (lookup?_exchangeable (by simp [binding?_exchangeable]))
    (.held default (lookup?_exchangeable hkey)
      (position?_number (denotes_ofNat (by omega)) (by omega))) hn

/-- `[a, b] = [b, a]` and `[v[i], v[j]] = [v[j], v[i]]`. -/
theorem parallel_assignment_swap :
    (∃ t, execStmt ⟨callWithin [] 0, 0, []⟩
        (assignment [.variable "a" default, .variable "b" default]
          [.variable "b" default, .variable "a" default] default default default default)
        exchangeable = .done .normal t ∧
      t.env.lookup? "a" = some .null ∧ t.env.lookup? "b" = some (.bool true)) ∧
    ∃ t, execStmt ⟨callWithin [] 0, 0, []⟩
        (assignment
          [.index (.variable "v" default) (.variable "i" default) default,
            .index (.variable "v" default) (.variable "j" default) default]
          [.index (.variable "v" default) (.variable "j" default) default,
            .index (.variable "v" default) (.variable "i" default) default]
          default default default default) exchangeable = .done .normal t ∧
      (t.heap.items 0)[0]? = some (.string "c") ∧ (t.heap.items 0)[2]? = some (.bool true) := by
  have ha : exchangeable.env.scopes.binding? "a" 0 = some ⟨.bool true, false⟩ := by
    simp [binding?_exchangeable]
  have hb : exchangeable.env.scopes.binding? "b" 0 = some ⟨.null, false⟩ := by
    simp [binding?_exchangeable]
  have hi : ElementAt exchangeable 0 0
      (.index (.variable "v" default) (.variable "i" default) default) :=
    elementAt_exchangeable (by omega) (by simp [binding?_exchangeable])
  have hj : ElementAt exchangeable 0 2
      (.index (.variable "v" default) (.variable "j" default) default) :=
    elementAt_exchangeable (by omega) (by simp [binding?_exchangeable])
  constructor
  · obtain ⟨t, hrun, hlookup, -⟩ := (parallel_assignment ⟨callWithin [] 0, 0, []⟩ exchangeable
      default default default default 2 ![.variable "a" default, .variable "b" default]
      ![.variable "b" default, .variable "a" default]).1 ![("a" : String), "b"] ![1, 0] ![0, 0]
      (by simp [Function.Injective, Fin.forall_fin_two])
      (Fin.forall_fin_two.mpr ⟨assignable_exchangeable ha, assignable_exchangeable hb⟩)
      (Fin.forall_fin_two.mpr ⟨.mk default, .mk default⟩)
      (Fin.forall_fin_two.mpr ⟨.mk default, .mk default⟩)
    exact ⟨t, hrun, (hlookup 0).trans (lookup?_exchangeable hb),
      (hlookup 1).trans (lookup?_exchangeable ha)⟩
  · obtain ⟨t, hrun, hitems, -⟩ := (parallel_assignment ⟨callWithin [] 0, 0, []⟩ exchangeable
      default default default default 2
      ![.index (.variable "v" default) (.variable "i" default) default,
        .index (.variable "v" default) (.variable "j" default) default]
      ![.index (.variable "v" default) (.variable "j" default) default,
        .index (.variable "v" default) (.variable "i" default) default]).2 0 ![0, 2] ![2, 0]
      (by simp [Function.Injective, Fin.forall_fin_two]) (Fin.forall_fin_two.mpr ⟨hi, hj⟩)
      (Fin.forall_fin_two.mpr ⟨hj, hi⟩)
    exact ⟨t, hrun, hitems 0, hitems 1⟩

end StepTrace
