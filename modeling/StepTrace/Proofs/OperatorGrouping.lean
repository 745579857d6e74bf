import StepTrace.Proofs.Readers

/-!
# How operators group

A sequence of operands with operators between them is read as a tree whose reading is the sequence
and in which tighter operators stand below looser ones: of equally tight ones the later one stands
above, but among powers the earlier one (`Grouped`). There is one such tree (`exists_grouped`), and
the parser finds it, since it finds every grouped tree from its reading (`binary_reading`).

* `Alternation`: operands with operators between them.
* `Grouping`: a tree of operands and operators.
* `expression_alternation`: what the parser makes of an alternation.
-/

namespace StepTrace.Syntax

open Reader

/-! ## Operands and operators -/

/-- A literal or a name. -/
inductive Operand where
  | number (value : Float)
  | bigint (digits : String)
  | string (text : String)
  | bool (value : Bool)
  | null
  | name (text : String)

namespace Operand

/-- The token of the operand. -/
def kind : Operand → Kind
  | number x => .number x
  | bigint digits => .bigint digits
  | string text => .string text
  | bool true => .keyword .trueKw
  | bool false => .keyword .falseKw
  | null => .keyword .nullKw
  | name x => .name x

/-- The operand as an expression that stands at the place. -/
def expr (l : Location) : Operand → Expr
  | number x => .number x l
  | bigint digits => .bigint digits l
  | string text => .string text l
  | bool b => .bool b l
  | null => .null l
  | name x => .variable x l

end Operand

namespace BinaryOp

/-- The symbol of the operator. -/
def symbol : BinaryOp → Symbol
  | .logical .and => .andAnd
  | .logical .or => .orOr
  | .logical .nullish => .questionQuestion
  | .strict .add => .plus
  | .strict .sub => .minus
  | .strict .mul => .star
  | .strict .div => .slash
  | .strict .mod => .percent
  | .strict .pow => .starStar
  | .strict .equal => .equal
  | .strict .notEqual => .notEqual
  | .strict .strictEqual => .strictEqual
  | .strict .strictNotEqual => .strictNotEqual
  | .strict .less => .less
  | .strict .lessEqual => .lessEqual
  | .strict .greater => .greater
  | .strict .greaterEqual => .greaterEqual
  | .strict .bitAnd => .ampersand
  | .strict .bitOr => .pipe
  | .strict .bitXor => .caret
  | .strict .shiftLeft => .shiftLeft
  | .strict .shiftRight => .shiftRight

/-- How tight the operator binds: the loosest is `??`, then come `||`, `&&`, `|`, `^`, `&`,
equality, comparison, shift, sum, product and power. -/
def tightness : BinaryOp → Nat
  | .logical .nullish => 0
  | .logical .or => 1
  | .logical .and => 2
  | .strict .bitOr => 3
  | .strict .bitXor => 4
  | .strict .bitAnd => 5
  | .strict .equal | .strict .notEqual | .strict .strictEqual | .strict .strictNotEqual => 6
  | .strict .less | .strict .lessEqual | .strict .greater | .strict .greaterEqual => 7
  | .strict .shiftLeft | .strict .shiftRight => 8
  | .strict .add | .strict .sub => 9
  | .strict .mul | .strict .div | .strict .mod => 10
  | .strict .pow => 11

end BinaryOp

/-- Operands with operators between them, each with its place. -/
inductive Alternation where
  | last (operand : Operand) (loc : Location)
  | more (operand : Operand) (loc : Location) (op : BinaryOp) (opLoc : Location)
    (rest : Alternation)

/-- The tokens of the operands and operators. -/
def Alternation.tokens : Alternation → List Token
  | last operand l => [⟨operand.kind, l⟩]
  | more operand l op opLoc rest => ⟨operand.kind, l⟩ :: ⟨.symbol op.symbol, opLoc⟩ :: rest.tokens

/-- A tree of operands and operators. -/
inductive Grouping where
  | leaf (operand : Operand) (loc : Location)
  | node (op : BinaryOp) (opLoc : Location) (left right : Grouping)

namespace Grouping

/-- The tree as an expression. -/
def expr : Grouping → Expr
  | leaf operand l => operand.expr l
  | node op l left right => .binary op left.expr right.expr l

/-- The tokens of the tree from left to right. -/
def reading : Grouping → List Token
  | leaf operand l => [⟨operand.kind, l⟩]
  | node op l left right => left.reading ++ ⟨.symbol op.symbol, l⟩ :: right.reading

/-- The place of the last operand. -/
def lastLoc : Grouping → Location
  | leaf _ l => l
  | node _ _ _ right => right.lastLoc

/-- The operator at the root, if there is one. -/
def root? : Grouping → Option BinaryOp
  | leaf _ _ => none
  | node op _ _ _ => some op

/-- The operator may stand at the root of the left side of the other one. -/
def FitsLeft (op above : BinaryOp) : Prop :=
  above.tightness < op.tightness ∨
    above.tightness = op.tightness ∧ above ≠ .strict .pow

/-- The operator may stand at the root of the right side of the other one. -/
def FitsRight (op above : BinaryOp) : Prop :=
  above.tightness < op.tightness ∨ (above = .strict .pow ∧ op = .strict .pow)

/-- Below each operator stand tighter ones, on its left side equally tight ones as well if it is
no power, and on its right side powers if it is one. -/
def Grouped : Grouping → Prop
  | leaf _ _ => True
  | node op _ left right => (∀ p ∈ left.root?, FitsLeft p op) ∧
    (∀ p ∈ right.root?, FitsRight p op) ∧ left.Grouped ∧ right.Grouped

end Grouping

/-! ## A grouped tree for every alternation -/

theorem BinaryOp.eq_pow_of_tightness {op : BinaryOp}
    (h : op.tightness = BinaryOp.tightness (.strict .pow)) : op = .strict .pow := by
  rcases op with (_ | _ | _) | op
  all_goals
    first
    | cases h
    | cases op <;> first | rfl | cases h

theorem Grouping.fits_right_or_left (op below : BinaryOp) :
    FitsRight below op ∨ FitsLeft op below := by
  unfold FitsRight FitsLeft
  by_cases hpow : below = .strict .pow
  · subst hpow
    rcases Nat.lt_trichotomy op.tightness (BinaryOp.tightness (.strict .pow)) with h | h | h
    · exact Or.inl (Or.inl h)
    · exact Or.inl (Or.inr ⟨BinaryOp.eq_pow_of_tightness h, rfl⟩)
    · exact Or.inr (Or.inl h)
  · rcases Nat.lt_trichotomy op.tightness below.tightness with h | h | h
    · exact Or.inl (Or.inl h)
    · exact Or.inr (Or.inr ⟨h.symm, hpow⟩)
    · exact Or.inr (Or.inl h)

/-- An operand and an operator can be put before a grouped tree. -/
theorem Grouping.exists_before {tree : Grouping} (htree : tree.Grouped) (operand : Operand)
    (l : Location) (op : BinaryOp) (opLoc : Location) : ∃ wider : Grouping, wider.Grouped ∧
      wider.reading = ⟨operand.kind, l⟩ :: ⟨.symbol op.symbol, opLoc⟩ :: tree.reading ∧
      (wider.root? = some op ∨ wider.root? = tree.root?) := by
  induction tree with
  | leaf last lastLoc =>
      exact ⟨node op opLoc (leaf operand l) (leaf last lastLoc), ⟨nofun, nofun, trivial, trivial⟩,
        rfl, Or.inl rfl⟩
  | node below belowLoc left right ihleft _ =>
      obtain ⟨hleft, hright, hgroupedLeft, hgroupedRight⟩ := htree
      rcases fits_right_or_left op below with hfits | hfits
      · refine ⟨node op opLoc (leaf operand l) (node below belowLoc left right),
          ⟨nofun, ?_, trivial, hleft, hright, hgroupedLeft, hgroupedRight⟩, rfl, Or.inl rfl⟩
        rintro p ⟨⟩
        exact hfits
      · obtain ⟨wider, hwider, hreading, hroot⟩ := ihleft hgroupedLeft
        refine ⟨node below belowLoc wider right, ⟨?_, hright, hwider, hgroupedRight⟩, ?_,
          Or.inr rfl⟩
        · intro p hp
          rcases hroot with hroot | hroot
          · rw [hroot] at hp
            cases hp
            exact hfits
          · exact hleft p (hroot ▸ hp)
        · simp [reading, hreading]

theorem Alternation.exists_grouped (sequence : Alternation) :
    ∃ tree : Grouping, tree.Grouped ∧ tree.reading = sequence.tokens := by
  induction sequence with
  | last operand l => exact ⟨.leaf operand l, trivial, rfl⟩
  | more operand l op opLoc rest ih =>
      obtain ⟨tree, htree, hreading⟩ := ih
      obtain ⟨wider, hwider, hreading', -⟩ := Grouping.exists_before htree operand l op opLoc
      exact ⟨wider, hwider, by rw [hreading', hreading]; rfl⟩

/-! ## Operands -/

/-- The kind of the token to be read next. -/
def nextKind (rest : List Token) : Kind :=
  (rest.head?.map Token.kind).getD .endOfInput

/-- What goes on an operand. -/
def trailerKinds : List Kind :=
  behindKinds ++ [.symbol .leftBracket, .symbol .dot, .symbol .leftParen]

variable {rest : List Token} {previous l : Location} {left : Nat}

theorem peek_kind (previous : Location) (rest : List Token) :
    (Input.mk previous rest).peek.kind = nextKind rest := by
  cases rest <;> rfl

theorem advance_cons {token : Token} (h : token.kind ≠ .endOfInput) :
    (Input.mk previous (token :: rest)).advance = ⟨token.loc, rest⟩ :=
  if_neg h

theorem acceptSymbol_of_ne {s : Symbol} (h : nextKind rest ≠ .symbol s) :
    acceptSymbol s ⟨previous, rest⟩ = .ok (false, ⟨previous, rest⟩) := by
  rw [acceptSymbol, accept, peek_kind, if_neg h]

theorem acceptSymbol_of_eq (s : Symbol) :
    acceptSymbol s ⟨previous, ⟨.symbol s, l⟩ :: rest⟩ = .ok (true, ⟨l, rest⟩) := by
  have hkind : nextKind (⟨.symbol s, l⟩ :: rest) = .symbol s := rfl
  rw [acceptSymbol, accept, peek_kind, hkind, if_pos rfl, advance_cons (by simp)]

theorem acceptBehind_none (h : nextKind rest ∉ trailerKinds) :
    acceptBehind ⟨previous, rest⟩ = .ok (none, ⟨previous, rest⟩) := by
  unfold acceptBehind
  rw [peek_kind]
  split
  · split
    · rename_i hkind
      exact absurd (hkind ▸ by decide) h
    · rename_i hkind
      exact absurd (hkind ▸ by decide) h
    · rfl
  · rfl

theorem trailers_none (h : nextKind rest ∉ trailerKinds) (e : Expr) :
    trailers (left + 1) e ⟨previous, rest⟩ = .ok (e, ⟨previous, rest⟩) := by
  have hmark {s : Symbol} (hs : .symbol s ∈ trailerKinds) :
      acceptSymbol s ⟨previous, rest⟩ = .ok (false, ⟨previous, rest⟩) :=
    acceptSymbol_of_ne fun heq => h (heq ▸ hs)
  rw [trailers, bind_of_ok rfl, bind_of_ok (acceptBehind_none h)]
  dsimp only
  rw [bind_of_ok (hmark (by decide))]
  simp only [Bool.false_eq_true, if_false]
  rw [bind_of_ok (hmark (by decide))]
  simp only [Bool.false_eq_true, if_false]
  rw [bind_of_ok (hmark (by decide))]
  rfl

theorem acceptAtom_operand (operand : Operand) :
    acceptAtom ⟨previous, ⟨operand.kind, l⟩ :: rest⟩ = .ok (some (operand.expr l), ⟨l, rest⟩) := by
  rcases operand with _ | _ | _ | (_ | _) | _ | _ <;> rfl

/-- Without operators around it, an operand is what `primary` reads. -/
theorem unary_of_primary {tokens : List Token} {last : Location} {e : Expr}
    (hawait : acceptWord .awaitKw ⟨previous, tokens⟩ = .ok (false, ⟨previous, tokens⟩))
    (hfront : acceptFront ⟨previous, tokens⟩ = .ok (none, ⟨previous, tokens⟩))
    (hnew : sees (.keyword .newKw) ⟨previous, tokens⟩ = .ok (false, ⟨previous, tokens⟩))
    (hprimary : primary (left + 1) ⟨previous, tokens⟩ = .ok (e, ⟨last, rest⟩))
    (h : nextKind rest ∉ trailerKinds) :
    unary (left + 2) ⟨previous, tokens⟩ = .ok (e, ⟨last, rest⟩) := by
  rw [unary, bind_of_ok rfl, bind_of_ok hawait]
  simp only [Bool.false_eq_true, if_false]
  rw [bind_of_ok hfront]
  dsimp only
  rw [bind_of_ok (by rw [bind_of_ok hnew]; exact hprimary), trailers_none h]

theorem unary_operand (operand : Operand) (h : nextKind rest ∉ trailerKinds) :
    unary (left + 2) ⟨previous, ⟨operand.kind, l⟩ :: rest⟩ =
      .ok (operand.expr l, ⟨l, rest⟩) := by
  have hawait : acceptWord .awaitKw ⟨previous, ⟨operand.kind, l⟩ :: rest⟩ =
      .ok (false, ⟨previous, ⟨operand.kind, l⟩ :: rest⟩) := by
    rcases operand with _ | _ | _ | (_ | _) | _ | _ <;> rfl
  have hfront : acceptFront ⟨previous, ⟨operand.kind, l⟩ :: rest⟩ =
      .ok (none, ⟨previous, ⟨operand.kind, l⟩ :: rest⟩) := by
    rcases operand with _ | _ | _ | (_ | _) | _ | _ <;> rfl
  have hnew : sees (.keyword .newKw) ⟨previous, ⟨operand.kind, l⟩ :: rest⟩ =
      .ok (false, ⟨previous, ⟨operand.kind, l⟩ :: rest⟩) := by
    rcases operand with _ | _ | _ | (_ | _) | _ | _ <;> rfl
  have hprimary : primary (left + 1) ⟨previous, ⟨operand.kind, l⟩ :: rest⟩ =
      .ok (operand.expr l, ⟨l, rest⟩) := by
    rw [primary, bind_of_ok rfl, bind_of_ok (acceptAtom_operand operand)]
    rfl
  exact unary_of_primary hawait hfront hnew hprimary h

/-! ## Operators of a level -/

/-- No operand and no operator of the level or a tighter one goes on here. -/
def EndsAt (level : Nat) (rest : List Token) : Prop :=
  nextKind rest ∉ trailerKinds ∧
    ∀ op : BinaryOp, nextKind rest = .symbol op.symbol → op.tightness < level

namespace BinaryOp

/-- All operators with their symbols. -/
def symbols : List OperatorOf :=
  levels.flatten ++ [(.starStar, .strict .pow)]

theorem lookup_symbol (op : BinaryOp) : symbols.lookup op.symbol = some op := by
  rcases op with (_ | _ | _) | op
  all_goals
    first
    | rfl
    | cases op <;> rfl

theorem symbol_inj {op other : BinaryOp} (h : op.symbol = other.symbol) : op = other := by
  have hop := op.lookup_symbol
  rw [h, other.lookup_symbol] at hop
  exact (Option.some.inj hop).symm

theorem tightness_lt (op : BinaryOp) : op.tightness < 12 := by
  rcases op with (_ | _ | _) | op
  all_goals
    first
    | decide
    | cases op <;> decide

theorem symbol_not_trailer (op : BinaryOp) : .symbol op.symbol ∉ trailerKinds := by
  rcases op with (_ | _ | _) | op
  all_goals
    first
    | decide
    | cases op <;> decide

/-- The operators of a level are those of its tightness. -/
theorem mem_levels : ∀ k (h : k < levels.length), ∀ entry ∈ levels[k],
    entry.1 = entry.2.symbol ∧ entry.2.tightness = k := by
  decide

theorem lookup_level (op : BinaryOp) (h : op.tightness < levels.length) :
    levels[op.tightness].lookup op.symbol = some op := by
  rcases op with (_ | _ | _) | op
  all_goals
    first
    | rfl
    | cases op <;> first | rfl | exact absurd h (by decide)

end BinaryOp

theorem EndsAt.symbol (op : BinaryOp) (l : Location) (rest : List Token) :
    EndsAt (op.tightness + 1) (⟨.symbol op.symbol, l⟩ :: rest) := by
  refine ⟨op.symbol_not_trailer, fun other h => ?_⟩
  obtain rfl : op = other := BinaryOp.symbol_inj (Kind.symbol.inj h)
  exact Nat.lt_succ_self _

theorem EndsAt.mono {level higher : Nat} (h : EndsAt level rest) (hle : level ≤ higher) :
    EndsAt higher rest :=
  ⟨h.1, fun op hop => Nat.lt_of_lt_of_le (h.2 op hop) hle⟩

theorem acceptOperator_of_tightness (op : BinaryOp) (h : op.tightness < levels.length) :
    acceptOperator levels[op.tightness] ⟨previous, ⟨.symbol op.symbol, l⟩ :: rest⟩ =
      .ok (some op, ⟨l, rest⟩) := by
  have hkind : nextKind (⟨.symbol op.symbol, l⟩ :: rest) = .symbol op.symbol := rfl
  unfold acceptOperator
  rw [peek_kind, hkind]
  dsimp only
  rw [op.lookup_level h, advance_cons (by simp)]

theorem acceptOperator_of_endsAt {k : Nat} (hk : k < levels.length) (h : EndsAt k rest) :
    acceptOperator levels[k] ⟨previous, rest⟩ = .ok (none, ⟨previous, rest⟩) := by
  unfold acceptOperator
  rw [peek_kind]
  split
  · rename_i s hkind
    split
    · rename_i op hop
      obtain ⟨hsymbol, htight⟩ := BinaryOp.mem_levels k hk _ (mem_of_lookup hop)
      have hlt := h.2 op (by rw [hkind, ← hsymbol])
      exact absurd htight (Nat.ne_of_lt hlt)
    · rfl
  · rfl

/-! ## Trees that are read back -/

namespace Grouping

/-- The number of operators. -/
def operators : Grouping → Nat
  | leaf _ _ => 0
  | node _ _ left right => left.operators + right.operators + 1

/-- The operator at the root is of the level or a tighter one. -/
def RootFrom (level : Nat) (tree : Grouping) : Prop :=
  ∀ op ∈ tree.root?, level ≤ op.tightness

end Grouping

open Grouping

theorem eq_pow_of_eleven_le {op : BinaryOp} (h : 11 ≤ op.tightness) : op = .strict .pow :=
  BinaryOp.eq_pow_of_tightness (Nat.le_antisymm (Nat.le_of_lt_succ op.tightness_lt) h)

/-- The left side of a power is an operand. -/
theorem eq_leaf_of_fitsLeft {tree : Grouping}
    (h : ∀ p ∈ tree.root?, FitsLeft p (.strict .pow)) : ∃ operand l, tree = .leaf operand l := by
  cases tree with
  | leaf operand l => exact ⟨operand, l, rfl⟩
  | node op opLoc first second =>
      rcases h op rfl with htight | ⟨-, hpow⟩
      · exact absurd op.tightness_lt (Nat.not_lt.mpr htight)
      · exact absurd rfl hpow

/-- A power that is grouped is read back. -/
theorem power_reading {tree : Grouping} (hgrouped : tree.Grouped) (hroot : tree.RootFrom 11)
    (hleft : tree.operators + 3 ≤ left) (hends : EndsAt 11 rest) :
    power left ⟨previous, tree.reading ++ rest⟩ = .ok (tree.expr, ⟨tree.lastLoc, rest⟩) := by
  induction tree generalizing left previous with
  | leaf operand l =>
      obtain ⟨left, rfl⟩ : ∃ n, left = n + 3 := Nat.exists_eq_add_of_le' (by omega)
      have hstar : acceptSymbol .starStar ⟨l, rest⟩ = .ok (false, ⟨l, rest⟩) :=
        acceptSymbol_of_ne fun heq => absurd (hends.2 (.strict .pow) heq) (by decide)
      rw [reading, List.singleton_append, power, bind_of_ok (unary_operand operand hends.1),
        bind_of_ok rfl, bind_of_ok hstar]
      rfl
  | node op opLoc first second _ ih =>
      obtain rfl := eq_pow_of_eleven_le (hroot op rfl)
      obtain ⟨hfirst, hsecond, -, hgrouped'⟩ := hgrouped
      obtain ⟨operand, l, rfl⟩ := eq_leaf_of_fitsLeft hfirst
      have hroot' : second.RootFrom 11 := by
        intro p hp
        rcases hsecond p hp with htight | ⟨-, rfl⟩
        · exact Nat.le_of_lt htight
        · exact Nat.le_refl _
      simp only [operators] at hleft
      obtain ⟨left, rfl⟩ : ∃ n, left = n + 3 := Nat.exists_eq_add_of_le' (by omega)
      have hbase : unary (left + 2) ⟨previous, ⟨operand.kind, l⟩ ::
          ⟨.symbol .starStar, opLoc⟩ :: (second.reading ++ rest)⟩ = .ok (operand.expr l, ⟨l, _⟩) :=
        unary_operand operand (EndsAt.symbol (.strict .pow) opLoc _).1
      have hexponent : power (left + 2) ⟨opLoc, second.reading ++ rest⟩ =
          .ok (second.expr, ⟨second.lastLoc, rest⟩) := ih hgrouped' hroot' (by omega)
      change power (left + 3) ⟨previous, ⟨operand.kind, l⟩ ::
          ⟨.symbol .starStar, opLoc⟩ :: (second.reading ++ rest)⟩ = _
      rw [power, bind_of_ok hbase, bind_of_ok rfl, bind_of_ok (acceptSymbol_of_eq _)]
      simp only [if_true]
      rw [bind_of_ok hexponent]
      rfl

/-! ## Levels -/

theorem rootFrom_left {level : Nat} {op : BinaryOp} {tree : Grouping} (hop : level ≤ op.tightness)
    (h : ∀ p ∈ tree.root?, FitsLeft p op) : tree.RootFrom level := by
  intro p hp
  rcases h p hp with htight | ⟨heq, -⟩
  · exact Nat.le_trans hop (Nat.le_of_lt htight)
  · exact heq ▸ hop

/-- What the parser does with a grouped tree whose operators are of the level or tighter ones. -/
def ReadsBack (level : Nat) : Prop :=
  ∀ {tree : Grouping} {left : Nat} {previous : Location} {rest : List Token}, tree.Grouped →
    tree.RootFrom level → tree.operators + (levels.length - level) + 4 ≤ left →
    EndsAt level rest → binary left (levels.drop level) ⟨previous, tree.reading ++ rest⟩ =
      .ok (tree.expr, ⟨tree.lastLoc, rest⟩)

section Level

variable {level : Nat} {tree : Grouping} (hlevel : level < levels.length)
  (htighter : ReadsBack (level + 1))

include htighter

/-- Behind a tree of tighter operators, operators of the level may follow. -/
theorem binary_of_tighter (hgrouped : tree.Grouped) (hroot : tree.RootFrom (level + 1))
    (hleft : tree.operators + (levels.length - level) + 3 ≤ left)
    (hends : EndsAt (level + 1) rest) :
    binary (left + 1) (levels.drop level) ⟨previous, tree.reading ++ rest⟩ =
      binaryRest left levels[level] (levels.drop (level + 1)) tree.expr
        ⟨tree.lastLoc, rest⟩ := by
  have hfirst : binary left (levels.drop (level + 1)) ⟨previous, tree.reading ++ rest⟩ =
      .ok (tree.expr, ⟨tree.lastLoc, rest⟩) := htighter hgrouped hroot (by omega) hends
  rw [List.drop_eq_getElem_cons hlevel, binary, bind_of_ok hfirst]

/-- Behind a grouped tree, operators of its level are still taken. -/
theorem binary_eq_binaryRest (hgrouped : tree.Grouped) (hroot : tree.RootFrom level)
    (hleft : tree.operators + (levels.length - level) + 4 ≤ left)
    (hends : EndsAt (level + 1) rest) (previous : Location) :
    ∃ left', left ≤ left' + tree.operators + 1 ∧
      binary left (levels.drop level) ⟨previous, tree.reading ++ rest⟩ =
        binaryRest left' levels[level] (levels.drop (level + 1)) tree.expr
          ⟨tree.lastLoc, rest⟩ := by
  induction tree generalizing rest previous with
  | leaf operand l =>
      obtain ⟨left, rfl⟩ : ∃ n, left = n + 1 := Nat.exists_eq_add_of_le' (by omega)
      exact ⟨left, by omega, binary_of_tighter hlevel htighter hgrouped nofun (by omega) hends⟩
  | node op opLoc first second ih _ =>
      by_cases htight : level < op.tightness
      · obtain ⟨left, rfl⟩ : ∃ n, left = n + 1 := Nat.exists_eq_add_of_le' (by omega)
        have hroot' : (node op opLoc first second).RootFrom (level + 1) := by
          rintro p ⟨⟩
          exact htight
        exact ⟨left, by omega,
          binary_of_tighter hlevel htighter hgrouped hroot' (by omega) hends⟩
      · -- the operator is of the level: it is taken behind the left side, then the right side
        obtain rfl : level = op.tightness :=
          Nat.le_antisymm (hroot op rfl) (Nat.not_lt.mp htight)
        obtain ⟨hfirst, hsecond, hgroupedFirst, hgroupedSecond⟩ := hgrouped
        have hroot' : second.RootFrom (op.tightness + 1) := by
          intro p hp
          rcases hsecond p hp with htight' | ⟨rfl, -⟩
          · exact htight'
          · exact absurd hlevel (by decide)
        simp only [operators] at hleft ⊢
        obtain ⟨left', hle, hbinary⟩ := ih hgroupedFirst (rootFrom_left (Nat.le_refl _) hfirst)
          (by omega) (EndsAt.symbol op opLoc (second.reading ++ rest)) previous
        obtain ⟨left', rfl⟩ : ∃ n, left' = n + 1 := Nat.exists_eq_add_of_le' (by omega)
        have hoperand : binary left' (levels.drop (op.tightness + 1))
            ⟨opLoc, second.reading ++ rest⟩ = .ok (second.expr, ⟨second.lastLoc, rest⟩) :=
          htighter hgroupedSecond hroot' (by omega) hends
        refine ⟨left', by omega, ?_⟩
        rw [reading, List.append_assoc, List.cons_append, hbinary, binaryRest, bind_of_ok rfl,
          bind_of_ok (acceptOperator_of_tightness op hlevel)]
        dsimp only
        rw [bind_of_ok hoperand]
        rfl

end Level

/-- The parser reads back every grouped tree whose operators are of the level or tighter ones. -/
theorem readsBack {level : Nat} (distance : Nat) (hlevel : level + distance = levels.length) :
    ReadsBack level := by
  induction distance generalizing level with
  | zero =>
      obtain rfl : level = levels.length := hlevel
      intro tree left previous rest hgrouped hroot hleft hends
      obtain ⟨left, rfl⟩ : ∃ n, left = n + 1 := Nat.exists_eq_add_of_le' (by omega)
      rw [List.drop_length, binary]
      exact power_reading hgrouped hroot (by omega) hends
  | succ distance ih =>
      intro tree left previous rest hgrouped hroot hleft hends
      have hlt : level < levels.length := by omega
      obtain ⟨left', hle, hbinary⟩ := binary_eq_binaryRest hlt (ih (by omega)) hgrouped hroot hleft
        (hends.mono (Nat.le_succ level)) previous
      obtain ⟨left', rfl⟩ : ∃ n, left' = n + 1 := Nat.exists_eq_add_of_le' (by omega)
      rw [hbinary, binaryRest, bind_of_ok rfl, bind_of_ok (acceptOperator_of_endsAt hlt hends)]
      rfl

/-! ## Expressions -/

/-- What goes on an expression of operands and operators. -/
def continuationKinds : List Kind :=
  trailerKinds ++ levelKinds BinaryOp.symbols ++ compoundKinds ++
    [.symbol .question, .symbol .assign, .symbol .arrow]

theorem endsAt_of_continuation {level : Nat} (h : nextKind rest ∉ continuationKinds) :
    EndsAt level rest := by
  simp only [continuationKinds, List.mem_append, not_or] at h
  refine ⟨h.1.1.1, fun op hop => absurd ?_ h.1.1.2⟩
  exact List.mem_map.mpr ⟨_, mem_of_lookup op.lookup_symbol, hop.symm⟩

theorem acceptCompound_none (h : nextKind rest ∉ compoundKinds) :
    acceptCompound ⟨previous, rest⟩ = .ok (none, ⟨previous, rest⟩) := by
  unfold acceptCompound
  rw [peek_kind]
  split
  all_goals
    rename_i hkind
    first
    | rfl
    | exact absurd (hkind ▸ by decide) h

theorem startsArrow_operand (operand : Operand) (h : nextKind rest ≠ .symbol .arrow) :
    startsArrow (⟨operand.kind, l⟩ :: rest) = false := by
  have harrow : (rest.head?.any fun next => next.kind = .symbol .arrow) = false := by
    cases rest with
    | nil => rfl
    | cons token rest => simpa [nextKind] using h
  rcases operand with _ | _ | _ | (_ | _) | _ | _
  all_goals
    first
    | rfl
    | exact harrow

/-- Behind its first operand, an alternation goes on with an operator or not at all. -/
theorem Alternation.startsArrow_tokens (sequence : Alternation)
    (hrest : nextKind rest ≠ .symbol .arrow) : startsArrow (sequence.tokens ++ rest) = false := by
  cases sequence with
  | last operand l => exact startsArrow_operand operand hrest
  | more operand l op opLoc others =>
      refine startsArrow_operand operand fun heq => ?_
      have hop := op.lookup_symbol
      rw [show op.symbol = .arrow from Kind.symbol.inj heq] at hop
      cases hop

/-- What is read on the first level is the whole expression if nothing goes on there. -/
theorem expression_of_binary {tokens : List Token} {last : Location} {e : Expr}
    (hbinary : binary left levels ⟨previous, tokens⟩ = .ok (e, ⟨last, rest⟩))
    (harrow : startsArrow tokens = false) (hrest : nextKind rest ∉ continuationKinds) :
    expression (left + 2) ⟨previous, tokens⟩ = .ok (e, ⟨last, rest⟩) := by
  have hsymbol {s : Symbol} (hs : .symbol s ∈ continuationKinds) :
      acceptSymbol s ⟨last, rest⟩ = .ok (false, ⟨last, rest⟩) :=
    acceptSymbol_of_ne fun heq => hrest (heq ▸ hs)
  have hcompound : nextKind rest ∉ compoundKinds := by
    simp only [continuationKinds, List.mem_append, not_or] at hrest
    exact hrest.1.2
  have hconditional : conditional (left + 1) ⟨previous, tokens⟩ = .ok (e, ⟨last, rest⟩) := by
    rw [conditional, bind_of_ok hbinary, bind_of_ok rfl, bind_of_ok (hsymbol (by decide))]
    rfl
  have hupcoming : upcoming ⟨previous, tokens⟩ = .ok (tokens, ⟨previous, tokens⟩) := rfl
  rw [expression, bind_of_ok hupcoming, harrow]
  simp only [Bool.false_eq_true, if_false]
  rw [bind_of_ok hconditional, bind_of_ok rfl, bind_of_ok (hsymbol (by decide))]
  simp only [Bool.false_eq_true, if_false]
  rw [bind_of_ok (acceptCompound_none hcompound)]
  rfl

/-- A grouped tree is read back as an expression. -/
theorem expression_reading (previous : Location) {tree : Grouping} (hgrouped : tree.Grouped)
    (hleft : tree.operators + levels.length + 6 ≤ left)
    (harrow : startsArrow (tree.reading ++ rest) = false)
    (hrest : nextKind rest ∉ continuationKinds) :
    expression left ⟨previous, tree.reading ++ rest⟩ = .ok (tree.expr, ⟨tree.lastLoc, rest⟩) := by
  obtain ⟨left, rfl⟩ : ∃ n, left = n + 2 := Nat.exists_eq_add_of_le' (by omega)
  have hbinary : binary left levels ⟨previous, tree.reading ++ rest⟩ =
      .ok (tree.expr, ⟨tree.lastLoc, rest⟩) :=
    readsBack levels.length (Nat.zero_add _) hgrouped (fun _ _ => Nat.zero_le _) (by omega)
      (endsAt_of_continuation hrest)
  exact expression_of_binary hbinary harrow hrest

/-! ## The tree of an alternation -/

theorem Operand.expr_inj {first second : Operand} {l l' : Location}
    (h : first.expr l = second.expr l') : first = second ∧ l = l' := by
  cases first <;> cases second <;> cases h <;> exact ⟨rfl, rfl⟩

theorem Grouping.expr_inj {first second : Grouping} (h : first.expr = second.expr) :
    first = second := by
  induction first generalizing second with
  | leaf operand l =>
      cases second with
      | leaf other l' =>
          obtain ⟨rfl, rfl⟩ := Operand.expr_inj h
          rfl
      | node op opLoc left right => cases operand <;> cases h
  | node op opLoc left right ihleft ihright =>
      cases second with
      | leaf other l' => cases other <;> cases h
      | node op' opLoc' left' right' =>
          obtain ⟨rfl, hleft, hright, rfl⟩ := Expr.binary.inj h
          rw [ihleft hleft, ihright hright]

theorem Grouping.length_reading (tree : Grouping) :
    tree.reading.length = 2 * tree.operators + 1 := by
  induction tree with
  | leaf => rfl
  | node op opLoc left right ihleft ihright =>
      simp only [reading, operators, List.length_append, List.length_cons, ihleft, ihright]
      omega

/-- Two grouped trees with one reading are one tree, since the parser makes both of it. -/
theorem Grouping.eq_of_reading {first second : Grouping} (hfirst : first.Grouped)
    (hsecond : second.Grouped) (hreading : first.reading = second.reading)
    (harrow : startsArrow first.reading = false) : first = second := by
  have hoperators : first.operators = second.operators := by
    have hlength := congrArg List.length hreading
    rw [length_reading, length_reading] at hlength
    omega
  have hend : nextKind [] ∉ continuationKinds := by decide
  have hread := expression_reading ⟨1, 1⟩ hfirst (Nat.le_refl _) (by rwa [List.append_nil]) hend
  rw [hreading,
    expression_reading _ hsecond (by omega) (by rwa [List.append_nil, ← hreading]) hend] at hread
  exact expr_inj (congrArg Prod.fst (Except.ok.inj hread)).symm

/-- **Precedence and associativity.** Operands with operators between them are read to the last
operand, as the one grouped tree whose reading they are. -/
theorem expression_alternation (sequence : Alternation) {behind : List Token}
    (hbehind : nextKind behind ∉ continuationKinds)
    (hleft : stepsPerToken * (sequence.tokens.length + 1) ≤ left) :
    ∃ tree : Grouping, tree.Grouped ∧ tree.reading = sequence.tokens ∧
      (∀ other : Grouping, other.Grouped → other.reading = sequence.tokens → other = tree) ∧
      expression left ⟨previous, sequence.tokens ++ behind⟩ =
        .ok (tree.expr, ⟨tree.lastLoc, behind⟩) := by
  obtain ⟨tree, hgrouped, hreading⟩ := sequence.exists_grouped
  have hone : startsArrow tree.reading = false := by
    have hend : nextKind [] ≠ .symbol .arrow := by decide
    rw [hreading, ← List.append_nil sequence.tokens]
    exact sequence.startsArrow_tokens hend
  have harrow : startsArrow (tree.reading ++ behind) = false := by
    rw [hreading]
    exact sequence.startsArrow_tokens fun heq => hbehind (heq ▸ by decide)
  have hdepth : tree.operators + levels.length + 6 ≤ left := by
    have hlength := tree.length_reading
    rw [← hreading, hlength, stepsPerToken] at hleft
    have hlevels : levels.length = 11 := rfl
    omega
  refine ⟨tree, hgrouped, hreading, fun other hother hsame => ?_, ?_⟩
  · exact (Grouping.eq_of_reading hgrouped hother (hreading.trans hsame.symm) hone).symm
  · rw [← hreading]
    exact expression_reading previous hgrouped hdepth harrow hbehind

theorem expression_alternation_power :
    nextKind [⟨.endOfInput, ⟨1, 12⟩⟩] ∉ continuationKinds ∧
    ∃ tree : Grouping, tree.Grouped ∧
      tree.reading = [⟨.name "a", ⟨1, 1⟩⟩, ⟨.symbol .plus, ⟨1, 3⟩⟩, ⟨.name "b", ⟨1, 5⟩⟩,
        ⟨.symbol .starStar, ⟨1, 7⟩⟩, ⟨.name "c", ⟨1, 10⟩⟩] ∧
      (∀ other : Grouping, other.Grouped → other.reading =
        [⟨.name "a", ⟨1, 1⟩⟩, ⟨.symbol .plus, ⟨1, 3⟩⟩, ⟨.name "b", ⟨1, 5⟩⟩,
          ⟨.symbol .starStar, ⟨1, 7⟩⟩, ⟨.name "c", ⟨1, 10⟩⟩] → other = tree) ∧
      expression (stepsPerToken * 6) ⟨⟨1, 1⟩, [⟨.name "a", ⟨1, 1⟩⟩, ⟨.symbol .plus, ⟨1, 3⟩⟩,
        ⟨.name "b", ⟨1, 5⟩⟩, ⟨.symbol .starStar, ⟨1, 7⟩⟩, ⟨.name "c", ⟨1, 10⟩⟩,
        ⟨.endOfInput, ⟨1, 12⟩⟩]⟩ = .ok (tree.expr, ⟨tree.lastLoc, [⟨.endOfInput, ⟨1, 12⟩⟩]⟩) :=
  ⟨by decide, expression_alternation (.more (.name "a") ⟨1, 1⟩ (.strict .add) ⟨1, 3⟩
    (.more (.name "b") ⟨1, 5⟩ (.strict .pow) ⟨1, 7⟩ (.last (.name "c") ⟨1, 10⟩)))
    (by decide) (by decide)⟩

end StepTrace.Syntax
