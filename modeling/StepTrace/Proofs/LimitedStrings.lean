import StepTrace.Proofs.EvaluatedStrings
import StepTrace.Proofs.LimitedRuns

/-!
# Strings of a run stay within the limit

In a run of a program whose string literals are within the limit, no value that is bound, stored,
returned or made without a check is a string beyond the limit, exactly if this is so of the values
that are made without a check (`string_limit`). The operations that ask for the length of a text
refuse one that is too long and leave everything as it was (`Composition.run_eq`).

The other operations do go beyond the limit: `doubling` is a program in which the conversion of an
array does (`not_short_doubling`).
-/

namespace StepTrace

open Syntax Capture

/-! ## Runs -/

/-- No value that is bound or stored at the moment, or of which the event tells, is a string that
is longer than allowed. -/
structure Moment.Short (moment : Moment) : Prop where
  env : moment.env.Stores Value.Short
  heap : moment.heap.Stores Value.Short
  event : moment.event.Short

theorem Moment.Short.tested {moment : Moment} (h : moment.Short) : moment.Tested := by
  intro value hvalue
  have hevent := h.event
  rwa [hvalue] at hevent

namespace Native

theorem short_fieldsOf (natives : List (String × Native)) (name : String) (value : Value)
    (h : (fieldsOf natives)[name]? = some value) : value.Short := by
  refine forall_ofList (fun entry hentry => ?_) name value h
  obtain ⟨native, -, rfl⟩ := List.mem_map.mp hentry
  trivial

theorem short_mathFields (name : String) (value : Value) (h : mathFields[name]? = some value) :
    value.Short := by
  unfold mathFields at h
  rw [Std.TreeMap.getElem?_insert] at h
  split at h
  · cases h
    trivial
  · rw [Std.TreeMap.getElem?_insert] at h
    split at h
    · cases h
      trivial
    · exact short_fieldsOf _ name value h

theorem stores_heap : heap.Stores Value.Short := by
  have hempty : Heap.empty.Stores Value.Short :=
    ⟨by simp [Heap.empty, Heap.items], by simp [Heap.empty, Heap.fields]⟩
  have hconsole (name : String) (value : Value) (h : consoleFields[name]? = some value) :
      value.Short := short_fieldsOf _ name value h
  have hobject (name : String) (value : Value) (h : objectFields[name]? = some value) :
      value.Short := short_fieldsOf _ name value h
  have hall := (((hempty.addObject short_mathFields).addObject hconsole).addObject
    (short_fieldsOf [("stringify", .stringify)])).addObject hobject
  exact hall

theorem stores_environment : environment.Stores Value.Short := by
  have hinitial : Environment.initial.Stores Value.Short := by
    rintro name (_ | i) binding hbinding
    · cases hbinding
    · cases hbinding
  refine .foldl globals (fun entry hentry env henv => henv.declare _ _ ?_) hinitial
  rcases List.mem_append.mp hentry with hentry | hentry
  · rcases List.mem_append.mp hentry with hentry | hentry
    · simp only [List.mem_cons, List.not_mem_nil, or_false] at hentry
      rcases hentry with rfl | rfl | rfl | rfl <;> trivial
    · obtain ⟨f, -, rfl⟩ := List.mem_map.mp hentry
      trivial
  · simp only [List.mem_cons, List.not_mem_nil, or_false] at hentry
    rcases hentry with rfl | rfl | rfl <;> trivial

end Native

/-- All values of the state are short, and all literals of its closures. -/
structure State.Short (s : State) : Prop where
  env : s.env.Stores Value.Short
  heap : s.heap.Stores Value.Short
  past : ∀ moment ∈ s.past.get, moment.Short
  closures : ∀ closure ∈ s.closures, ShortTexts (functionTexts closure.function)

theorem State.short_iff {s : State} :
    s.Short ↔ stringUpkeep.Holds s ∧ stringUpkeep.OfClosures s := by
  constructor
  · rintro ⟨henv, hheap, hpast, hclosures⟩
    refine ⟨⟨henv, hheap, fun moment hmoment => ?_⟩, hclosures⟩
    exact ⟨(hpast moment hmoment).env, (hpast moment hmoment).heap, (hpast moment hmoment).event⟩
  · rintro ⟨⟨henv, hheap, hpast⟩, hclosures⟩
    refine ⟨henv, hheap, fun moment hmoment => ?_, hclosures⟩
    exact ⟨(hpast moment hmoment).env, (hpast moment hmoment).heap, (hpast moment hmoment).event⟩

theorem State.short_initial : State.initial.Short where
  env := Native.stores_environment
  heap := Native.stores_heap
  past := by simp [State.initial]
  closures := by simp [State.initial]

/-- All values are short at any time of a run, exactly if those are that are made without a
check. -/
theorem Capture.Instrumented.short_iff (program : Capture.Instrumented)
    (h : ShortTexts (texts program.program)) (bound : Nat) (allowance : Option Nat) :
    let past := (program.runWithin bound allowance).final.past.get
    (∀ moment ∈ past, moment.Short) ↔ ∀ moment ∈ past, moment.Tested := by
  intro past
  refine ⟨fun hshort moment hmoment => (hshort moment hmoment).tested, fun htested => ?_⟩
  obtain ⟨hinitial, hclosures⟩ := State.short_iff.mp State.short_initial
  have hprogram := KeepsShort.program program.candidates bound program.program h
  have hfinal := hprogram.run hclosures hinitial allowance #[] htested
  intro moment hmoment
  obtain ⟨henv, hheap, hevent⟩ := hfinal.past moment hmoment
  exact ⟨henv, hheap, hevent⟩

/-- In a state in which all values are short, an expression with short literals ends with a short
value, as long as the values are short that are made without a check. -/
theorem evalExpr_short (names : List String) (bound : Nat) (e : Expr)
    (h : ShortTexts (exprTexts e)) (s : State) (hs : s.Short) :
    (evalExpr ⟨callWithin names bound, bound, names⟩ e s).Ends
      (fun value s' => (∀ moment ∈ s'.past.get, moment.Tested) → value.Short ∧ s'.Short)
      fun _ s' => (∀ moment ∈ s'.past.get, moment.Tested) → s'.Short := by
  obtain ⟨hholds, hclosures⟩ := State.short_iff.mp hs
  have hexpr : KeepsShort True (evalExpr ⟨callWithin names bound, bound, names⟩ e) :=
    .expr (.callWithin names bound) e h
  refine (hexpr s hclosures).mono (fun value s' hend htested => ?_) fun _ s' hend htested => ?_
  · obtain ⟨hs', hvalue⟩ := hend.holds trivial hholds htested
    exact ⟨hvalue, State.short_iff.mpr ⟨hs', hend.closures hclosures⟩⟩
  · obtain ⟨hs', -⟩ := hend.holds trivial hholds htested
    exact State.short_iff.mpr ⟨hs', hend.closures hclosures⟩

/-! ## Operations that ask for the length -/

/-- An operation that puts a text together and asks for its length first. -/
inductive Composition where
  /-- The operator `+` where it reads an operand as text. -/
  | add (a b : Value) (textual : a.isTextual || b.isTextual)
  /-- The method `join` or `toString` of an array. -/
  | join (array : Nat) (method : String) (named : method = "join" ∨ method = "toString")
    (args : List Value)
  /-- The method `repeat` of a string. -/
  | repeat (s : String) (args : List Value)
  /-- The method `concat` of a string. -/
  | concat (s : String) (args : List Value)

namespace Composition

/-- The operation itself. -/
def run (call : Caller) (loc : Location) : Composition → Eval Value
  | add a b _ => Eval.consultAt loc fun heap => a.binary heap .add b
  | join array method _ args => (Value.array array).callMethod call method args loc
  | «repeat» s args => (Value.string s).callMethod call "repeat" args loc
  | concat s args => (Value.string s).callMethod call "concat" args loc

/-- How often `repeat` is to write the text, if its argument says so. -/
def count? (heap : Heap) (args : List Value) : Option Nat :=
  (Number.toInt? (Builtin.numberArgument heap args 0)).bind Int.toNat?

/-- The text that is to be made. -/
def text (heap : Heap) : Composition → String
  | add a b _ => a.text heap ++ b.text heap
  | join array _ _ args => Builtin.joinedText heap (heap.items array)
      (((Builtin.given? args 0).map fun value => value.text heap).getD ",")
  | «repeat» s args => String.join (List.replicate ((count? heap args).getD 0) s)
  | concat s args => s ++ String.join (args.map fun value => value.text heap)

/-- The string that is gone out from is short, and a text is to be repeated a number of times. -/
def Possible (heap : Heap) : Composition → Prop
  | «repeat» _ args => (count? heap args).isSome
  | concat s _ => (Value.string s).Short
  | add .. | join .. => True

/-- A method of a string that changes no letters is decided by a look at the heap. -/
theorem callMethod_string (call : Caller) (t method : String) (args : List Value) (loc : Location)
    (hsplit : method ≠ "split") (hcase : Builtin.changesCase method = false) :
    (Value.string t).callMethod call method args loc =
      Eval.consultAt loc fun heap => Builtin.stringMethod heap t method args := by
  unfold Value.callMethod
  dsimp only
  rw [if_neg hsplit, hcase]
  exact bind_pure _

/-- The text is made if it is within the limit, and refused otherwise. In either case the state is
as it was. -/
theorem run_eq (composition : Composition) (call : Caller) (loc : Location) (s : State)
    (h : composition.Possible s.heap) :
    composition.run call loc s =
      if (composition.text s.heap).utf8ByteSize ≤ Limit.stringLength then
        .done (.string (composition.text s.heap)) s
      else .stopped (.fault ⟨.stringLength, loc⟩) s := by
  have hlook {question : Heap → Except Cause Value} {text : String}
      (hquestion : question s.heap = if text.utf8ByteSize ≤ Limit.stringLength then
        .ok (.string text) else .error .stringLength) :
      Eval.consultAt loc question s = if text.utf8ByteSize ≤ Limit.stringLength then
        .done (.string text) s else .stopped (.fault ⟨.stringLength, loc⟩) s := by
    rw [Eval.consultAt_apply, hquestion]
    by_cases htext : text.utf8ByteSize ≤ Limit.stringLength
    · rw [if_pos htext, if_pos htext]
    · rw [if_neg htext, if_neg htext]
  cases composition with
  | add a b htextual => exact hlook (Value.add_eq s.heap htextual)
  | join array method hmethod args =>
      rcases hmethod with rfl | rfl
      · exact hlook (Builtin.joined_eq s.heap _ _)
      · exact hlook (Builtin.joined_eq s.heap _ _)
  | «repeat» t args =>
      obtain ⟨n, hn⟩ := Option.isSome_iff_exists.mp h
      obtain ⟨k, hk, hcount⟩ := Option.bind_eq_some_iff.mp hn
      have hnonneg : 0 ≤ k := Int.mem_toNat?.mp hcount ▸ Int.natCast_nonneg n
      have htimes : k.toNat = n := by
        rw [Int.mem_toNat?.mp hcount, Int.toNat_natCast]
      have hquestion := Builtin.repeatText_eq (s := t) hk hnonneg
      rw [htimes] at hquestion
      rw [run, callMethod_string call t "repeat" args loc (by decide) rfl]
      refine hlook ?_
      change Value.string <$> Builtin.repeatText t (Builtin.numberArgument s.heap args 0) = _
      rw [hquestion, text, hn, Option.getD_some]
      split
      · rfl
      · rfl
  | concat t args =>
      rw [run, callMethod_string call t "concat" args loc (by decide) rfl]
      refine hlook ?_
      change Value.string <$> Builtin.concatTexts t (args.map fun value => value.text s.heap) = _
      rw [Builtin.concatTexts_eq h, text]
      split
      · rfl
      · rfl

end Composition

/-- **Strings within the limit.** In a run of a program with short literals, no string is longer
than allowed at any time, exactly if this is so of the values that are made without a check; and in
a state in which no string is, an expression with short literals has a value that is not either.
An operation that asks for the length makes the text if that is within the limit, and otherwise
stops with a fault and leaves the state as it was. -/
theorem string_limit (program : Capture.Instrumented) (h : ShortTexts (texts program.program))
    (bound : Nat) (allowance : Option Nat) :
    let past := (program.runWithin bound allowance).final.past.get
    ((∀ moment ∈ past, moment.Short) ↔ ∀ moment ∈ past, moment.Tested) ∧
      (∀ (e : Expr) (s : State), ShortTexts (exprTexts e) → s.Short →
        (evalExpr ⟨callWithin program.candidates bound, bound, program.candidates⟩ e s).Ends
          (fun value s' => (∀ moment ∈ s'.past.get, moment.Tested) → value.Short ∧ s'.Short)
          fun _ s' => (∀ moment ∈ s'.past.get, moment.Tested) → s'.Short) ∧
      (∀ (composition : Composition) (call : Caller) (loc : Location) (s : State),
        composition.Possible s.heap →
        composition.run call loc s =
          if (composition.text s.heap).utf8ByteSize ≤ Limit.stringLength then
            .done (.string (composition.text s.heap)) s
          else .stopped (.fault ⟨.stringLength, loc⟩) s) ∧
      ∀ loc, Fault.message ⟨.stringLength, loc⟩ = "RangeError: Invalid string length" :=
  ⟨program.short_iff h bound allowance,
    fun e s he hs => evalExpr_short program.candidates bound e he s hs,
    Composition.run_eq, fun _ => rfl⟩

/-- One letter more for a string that has as many bytes as are allowed. -/
theorem string_limit_concat :
    let program : Program := [.expr (.string "a" ⟨1, 1⟩) ⟨1, 1⟩]
    let full := String.join (List.replicate Limit.stringLength "a")
    ShortTexts (texts program) ∧
      (Composition.concat full [.string "a"]).Possible Native.heap ∧
      (Composition.concat full [.string "a"]).run (callWithin [] 1) ⟨1, 1⟩ .initial =
        .stopped (.fault ⟨.stringLength, ⟨1, 1⟩⟩) .initial := by
  have hsize : (String.join (List.replicate Limit.stringLength "a")).utf8ByteSize =
      Limit.stringLength := utf8ByteSize_join_replicate _ _
  generalize String.join (List.replicate Limit.stringLength "a") = full at hsize
  intro program full
  have hprogram : ShortTexts (texts program) := by
    intro text htext
    obtain rfl := List.mem_singleton.mp htext
    change "a".utf8ByteSize ≤ Limit.stringLength
    decide
  have hfull : (Composition.concat full [.string "a"]).Possible Native.heap := Nat.le_of_eq hsize
  obtain ⟨-, -, hcomposition, -⟩ := string_limit ⟨"", program, []⟩ hprogram 1 none
  have hconcat := hcomposition (.concat full [.string "a"]) (callWithin [] 1) ⟨1, 1⟩ .initial hfull
  rw [if_neg] at hconcat
  · exact ⟨hprogram, hfull, hconcat⟩
  · change ¬ (full ++ String.join ["a"]).utf8ByteSize ≤ _
    rw [String.utf8ByteSize_append, hsize]
    exact Nat.not_succ_le_self _

/-! ## A string beyond the limit -/

/-- A function that writes a string twice. -/
def double : Function :=
  .mk none ["s"] [.return (some (.binary (.strict .add) (.variable "s" ⟨1, 65⟩)
    (.variable "s" ⟨1, 69⟩) ⟨1, 67⟩)) ⟨1, 65⟩] false true none

theorem call_double {names : List String} {bound place scope : Nat} {text : String} {s : State}
    (h : Callable double place scope s)
    (htext : (text ++ text).utf8ByteSize ≤ Limit.stringLength)
    (rest : List Value) (callee : String) (loc : Location) :
    ∃ s', callWithin names (bound + 1) (.function place) (.string text :: rest) callee loc s =
      .done (.string (text ++ text)) s' ∧ Callable double place scope s' := by
  let on : Setting := ⟨callWithin names bound, bound, names⟩
  let entered := s.entering double scope (.string text :: rest)
  let left := entered.record (.returned (.string (text ++ text)))
  have hname (loc : Location) : evalExpr on (.variable "s" loc) entered =
      .done (.string text) entered := by
    rw [evalExpr]
    exact Eval.lookup_eq_done.mpr ⟨rfl, State.lookup?_entering rfl scope (.string text) rest s⟩
  have hsum : Eval.consultAt ⟨1, 67⟩
      (fun heap => (Value.string text).binary heap .add (.string text)) entered =
        .done (.string (text ++ text)) entered := by
    refine Eval.consultAt_eq_done.mpr ⟨rfl, ?_⟩
    exact (Value.add_eq entered.heap rfl).trans (if_pos htext)
  have hbody : execStmts on double.body entered =
      .done (.return (.string (text ++ text))) left := by
    simp only [execStmts, double, Function.body, hoist, pure_bind, execEach, execStmt, evalExpr]
    simp only [evalExpr] at hname
    simp only [Eval.bind_apply, hname, Process.andThen, hsum]
    rfl
  exact ⟨left.changeEnv Environment.leaveCall, h.call hbody callee loc, ⟨h.closure, h.room⟩⟩

/-- A reduction of twenty-eight elements with `double` from one letter on. -/
def doubled : Expr :=
  .call (.member (.array [.spread (.string "abcdefghijklmnopqrstuvwxyzab" ⟨1, 21⟩) ⟨1, 18⟩]
    ⟨1, 17⟩) "reduce" ⟨1, 52⟩) [.item (.function double ⟨1, 60⟩), .item (.string "a" ⟨1, 72⟩)]
    ⟨1, 59⟩

theorem eval_doubled (bound : Nat) (s : State) (h : s.env.depth < Limit.callDepth) :
    ∃ text s', evalExpr ⟨callWithin [] (bound + 1), bound + 1, []⟩ doubled s =
        .done (.string text) s' ∧ text.utf8ByteSize = Limit.stringLength := by
  let on : Setting := ⟨callWithin [] (bound + 1), bound + 1, []⟩
  let items := ("abcdefghijklmnopqrstuvwxyzab".toList.map Value.ofChar).toArray
  let receiver := s.heap.arrays.size
  let received := (s.changeHeap (·.addArray items)).record (.unchecked receiver)
  let callee := s.closures.size
  let ready := received.addClosure double
  have hargs : evalElements on [.item (.function double ⟨1, 60⟩), .item (.string "a" ⟨1, 72⟩)]
      received = .done [.function callee, .string "a"] ready := by
    rfl
  have hitems : ready.heap.items receiver = items := Heap.items_addArray s.heap items
  -- `n` further calls make the text as long as is allowed
  let Ready (n : Nat) (value : Value) (s' : State) : Prop :=
    Callable double callee s.env.current s' ∧ ∃ text, value = .string text ∧
      2 ^ n * text.utf8ByteSize = Limit.stringLength
  have hstart : Ready items.toList.length (.string "a") ready := by
    refine ⟨⟨Array.getElem?_push_size, h⟩, "a", rfl, ?_⟩
    have hcount : items.toList.length = 28 := rfl
    rw [hcount]
    decide
  have hstep (n : Nat) (value item : Value) (index : Nat) (s : State)
      (hready : Ready (n + 1) value s) :
      ∃ value' s', on.call (.function callee) [value, item, .ofCount index, .array receiver]
        "reduce callback" ⟨1, 59⟩ s = .done value' s' ∧ Ready n value' s' := by
    obtain ⟨hcallable, text, rfl, hsize⟩ := hready
    have hdouble : 2 ^ n * (text ++ text).utf8ByteSize = Limit.stringLength := by
      rw [String.utf8ByteSize_append, ← hsize, Nat.pow_succ, Nat.mul_assoc, Nat.two_mul]
    have hwithin : (text ++ text).utf8ByteSize ≤ Limit.stringLength :=
      hdouble ▸ Nat.le_mul_of_pos_left _ (Nat.two_pow_pos n)
    obtain ⟨s', hcall, hcallable'⟩ := call_double hcallable hwithin
      [item, .ofCount index, .array receiver] "reduce callback" ⟨1, 59⟩
    exact ⟨.string (text ++ text), s', hcall, hcallable', text ++ text, rfl, hdouble⟩
  obtain ⟨value, s', hreduce, -, text, rfl, hsize⟩ :=
    Builtin.exists_reduceFrom Ready hstep items.toList 0 hstart
  refine ⟨text, s', ?_, (Nat.one_mul _).symm.trans hsize⟩
  rw [doubled, evalExpr_reduce (evalExpr_characters on _ _ _ _ s) hargs, hitems]
  exact hreduce

/-- The text of an array with a string and an empty value ends with a comma. -/
theorem text_array_null {heap : Heap} {array : Nat} {text : String}
    (h : heap.items array = #[.string text, .null]) :
    (Value.array array).text heap = text ++ "," := by
  have hstring (depth : Nat) (inside : List Nat) :
      Value.textWithin heap depth inside (.string text) = text := by
    cases depth <;> rfl
  rw [Value.text, Value.textWithin]
  change ",".intercalate ((heap.items array).toList.map _) = _
  rw [h]
  change ",".intercalate [Value.textWithin heap _ _ (.string text), ""] = _
  rw [hstring, String.intercalate_cons_cons, String.intercalate_singleton, String.append_empty]

theorem lookup?_string : State.started.env.lookup? "String" = some (.native .string) := by
  have hchain : State.started.env.scopes.outwards 1 = [1, 0] := by
    rw [Scopes.outwards_some (j := 0) rfl Nat.one_pos, Scopes.outwards_none rfl]
  change State.started.env.scopes.lookup? "String" 1 = _
  rw [Scopes.lookup?_eq, hchain]
  rfl

def doubling : String :=
  "let n = String([[...\"abcdefghijklmnopqrstuvwxyzab\"].reduce(s => s + s, \"a\"), null]).length;\n"

/-- The program of `doubling`. -/
def doublingProgram : Program :=
  [.declare .letDecl [.mk (.name "n") (some (.member (.call (.variable "String" ⟨1, 9⟩)
    [.item (.array [.item doubled, .item (.null ⟨1, 78⟩)] ⟨1, 16⟩)] ⟨1, 15⟩) "length" ⟨1, 84⟩))]
    ⟨1, 1⟩]

set_option maxRecDepth 8192 in
theorem parse_doubling : parse doubling = .ok doublingProgram := by
  have htokens : tokenize doubling = .ok [⟨.keyword .letKw, ⟨1, 1⟩⟩, ⟨.name "n", ⟨1, 5⟩⟩,
      ⟨.symbol .assign, ⟨1, 7⟩⟩, ⟨.name "String", ⟨1, 9⟩⟩, ⟨.symbol .leftParen, ⟨1, 15⟩⟩,
      ⟨.symbol .leftBracket, ⟨1, 16⟩⟩, ⟨.symbol .leftBracket, ⟨1, 17⟩⟩,
      ⟨.symbol .ellipsis, ⟨1, 18⟩⟩, ⟨.string "abcdefghijklmnopqrstuvwxyzab", ⟨1, 21⟩⟩,
      ⟨.symbol .rightBracket, ⟨1, 51⟩⟩, ⟨.symbol .dot, ⟨1, 52⟩⟩, ⟨.name "reduce", ⟨1, 53⟩⟩,
      ⟨.symbol .leftParen, ⟨1, 59⟩⟩, ⟨.name "s", ⟨1, 60⟩⟩, ⟨.symbol .arrow, ⟨1, 62⟩⟩,
      ⟨.name "s", ⟨1, 65⟩⟩, ⟨.symbol .plus, ⟨1, 67⟩⟩, ⟨.name "s", ⟨1, 69⟩⟩,
      ⟨.symbol .comma, ⟨1, 70⟩⟩, ⟨.string "a", ⟨1, 72⟩⟩, ⟨.symbol .rightParen, ⟨1, 75⟩⟩,
      ⟨.symbol .comma, ⟨1, 76⟩⟩, ⟨.keyword .nullKw, ⟨1, 78⟩⟩, ⟨.symbol .rightBracket, ⟨1, 82⟩⟩,
      ⟨.symbol .rightParen, ⟨1, 83⟩⟩, ⟨.symbol .dot, ⟨1, 84⟩⟩, ⟨.name "length", ⟨1, 85⟩⟩,
      ⟨.symbol .semicolon, ⟨1, 91⟩⟩, ⟨.endOfInput, ⟨2, 1⟩⟩] := by
    rfl
  unfold parse
  rw [htokens]
  rfl

/-- A run of a program with short literals in which a string outgrows the limit and nothing is
refused. -/
theorem not_short_doubling :
    ∃ program, parse doubling = .ok program ∧ ShortTexts (texts program) ∧
      let run := Capture.Instrumented.run ⟨doubling, program, []⟩ none
      run.outcome = .completed ∧
      ¬ ∀ moment ∈ run.final.past.get, moment.Short := by
  let pair : Expr := .array [.item doubled, .item (.null ⟨1, 78⟩)] ⟨1, 16⟩
  have hlong (n : Nat) : ∃ value made, evalExpr ⟨callWithin [] (n + 1), n + 1, []⟩
      (.member (.call (.variable "String" ⟨1, 9⟩) [.item pair] ⟨1, 15⟩) "length" ⟨1, 84⟩)
        .started = .done value made ∧ ∃ moment ∈ made.past.get, ¬ moment.Short := by
    let on : Setting := ⟨callWithin [] (n + 1), n + 1, []⟩
    obtain ⟨text, reduced, hreduced, hsize⟩ := eval_doubled n .started State.depth_started
    let array := reduced.heap.arrays.size
    let listed := (reduced.changeHeap (·.addArray #[.string text, .null])).record (.unchecked array)
    let longer := (Value.array array).text listed.heap
    let made := listed.record (.untested (.string longer))
    have hcallee : evalExpr on (.variable "String" ⟨1, 9⟩) .started =
        .done (.native .string) .started := by
      rw [evalExpr]
      exact Eval.lookup_eq_done.mpr ⟨rfl, lookup?_string⟩
    have hpair : evalExpr on pair .started = .done (.array array) listed := by
      rw [evalExpr, evalElements, Eval.bind_apply, Eval.bind_apply, hreduced]
      rfl
    have hargs : evalElements on [.item pair] .started = .done [.array array] listed := by
      rw [evalElements, Eval.bind_of_done hpair]
      rfl
    have hcall : evalExpr on (.call (.variable "String" ⟨1, 9⟩) [.item pair] ⟨1, 15⟩) .started =
        .done (.string longer) made := by
      rw [evalExpr, Eval.bind_of_done hcallee, Eval.bind_of_done hargs]
      · rfl
      · nofun
    refine ⟨.ofCount longer.toList.length, made, ?_,
      ⟨.untested (.string longer), listed.env, listed.heap⟩, by simp [made, State.record],
      fun hshort => ?_⟩
    · rw [evalExpr, Eval.bind_of_done hcall]
      rfl
    · have hlonger : longer = text ++ "," := text_array_null (Heap.items_addArray reduced.heap _)
      have hevent : longer.utf8ByteSize ≤ Limit.stringLength := hshort.event
      rw [hlonger, String.utf8ByteSize_append, hsize] at hevent
      exact Nat.not_succ_le_self _ hevent
  have hliterals : ShortTexts (texts doublingProgram) := by
    intro literal hliteral
    change literal.utf8ByteSize ≤ _
    have htexts : texts doublingProgram = ["abcdefghijklmnopqrstuvwxyzab", "a"] := rfl
    rw [htexts] at hliteral
    simp only [List.mem_cons, List.not_mem_nil, or_false] at hliteral
    rcases hliteral with rfl | rfl <;> decide
  obtain ⟨hcompleted, moment, hmoment, hmore⟩ :=
    Capture.Instrumented.run_declare hlong doubling "n" ⟨1, 1⟩
  exact ⟨_, parse_doubling, hliterals, hcompleted, fun hshort => hmore (hshort moment hmoment)⟩

end StepTrace
