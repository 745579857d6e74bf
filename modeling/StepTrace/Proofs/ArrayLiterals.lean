import StepTrace.Proofs.ArrayDeclarations
import StepTrace.Proofs.ArrayTokens
import StepTrace.Proofs.OperatorGrouping

/-!
# Array literals

The tokens of a tree are read as an array literal of the same shape (`isReadBack`): a
numeral as a number, and a list as the array of what its items are read as. Between an expression
and a number or an array stand the levels of all operators, and none of these is there
(`expression_literal`). A declaration whose initial value is printed as a tree is read as the
declaration of that literal (`parse_declaration`).

* `Denotes`: a literal with the shape and the leaves of a tree.
-/

namespace StepTrace.Lowering

open Syntax

/-- The expression is a literal of the tree: a number for a leaf, an array for a node. -/
inductive Denotes : NumberTree → Expr → Prop
  | leaf (n : Nat) (l : Location) : Denotes (.leaf n) (.number (leafNumber n) l)
  | node {items : List (NumberTree × Expr)} (l : Location)
    (hitems : ∀ item ∈ items, Denotes item.1 item.2) :
    Denotes (.node (items.map Prod.fst)) (.array (items.map fun item => .item item.2) l)

/-- What holds of a leaf, and of a node if it holds of its children, holds of every tree. -/
theorem NumberTree.induction {P : NumberTree → Prop} (leaf : ∀ n, P (.leaf n))
    (node : ∀ children, (∀ child ∈ children, P child) → P (.node children)) (tree : NumberTree) :
    P tree :=
  @NumberTree.rec P (fun children => ∀ child ∈ children, P child) leaf node (List.forall_mem_nil P)
    (fun _ _ hchild hothers => List.forall_mem_cons.mpr ⟨hchild, hothers⟩) tree

end StepTrace.Lowering

namespace StepTrace.Syntax

open Reader Lowering

variable {previous last l : Location} {tokens rest : List Token} {left : Nat} {e : Expr}

/-! ## Through the levels of operators -/

/-- A numeral or an opening bracket is next. -/
def StartsLiteral (tokens : List Token) : Prop :=
  nextKind tokens = .symbol .leftBracket ∨ ∃ x, nextKind tokens = .number x

theorem StartsLiteral.exists_cons (h : StartsLiteral tokens) :
    ∃ l others, tokens = ⟨.symbol .leftBracket, l⟩ :: others ∨
      ∃ x, tokens = ⟨.number x, l⟩ :: others := by
  cases tokens with
  | nil =>
      obtain h | ⟨x, h⟩ := h
      · cases h
      · cases h
  | cons token others =>
      obtain ⟨kind, l⟩ := token
      obtain h | ⟨x, h⟩ := h
      · cases h
        exact ⟨l, others, Or.inl rfl⟩
      · cases h
        exact ⟨l, others, Or.inr ⟨x, rfl⟩⟩

section Levels

variable (hstart : StartsLiteral tokens)
  (hprimary : primary (left + 1) ⟨previous, tokens⟩ = .ok (e, ⟨last, rest⟩))
  (hrest : nextKind rest ∉ continuationKinds)

include hstart hprimary hrest

theorem unary_literal : unary (left + 2) ⟨previous, tokens⟩ = .ok (e, ⟨last, rest⟩) := by
  have hplain : acceptWord .awaitKw ⟨previous, tokens⟩ = .ok (false, ⟨previous, tokens⟩) ∧
      acceptFront ⟨previous, tokens⟩ = .ok (none, ⟨previous, tokens⟩) ∧
      sees (.keyword .newKw) ⟨previous, tokens⟩ = .ok (false, ⟨previous, tokens⟩) := by
    obtain ⟨l, others, rfl | ⟨x, rfl⟩⟩ := hstart.exists_cons
    · exact ⟨rfl, rfl, rfl⟩
    · exact ⟨rfl, rfl, rfl⟩
  obtain ⟨hawait, hfront, hnew⟩ := hplain
  have hends : EndsAt 0 rest := endsAt_of_continuation hrest
  exact unary_of_primary hawait hfront hnew hprimary hends.1

theorem binary_literal {distance level : Nat} (hlevel : level + distance = levels.length) :
    binary (left + 4 + distance) (levels.drop level) ⟨previous, tokens⟩ =
      .ok (e, ⟨last, rest⟩) := by
  induction distance generalizing level with
  | zero =>
      obtain rfl : level = levels.length := hlevel
      have hstar : acceptSymbol .starStar ⟨last, rest⟩ = .ok (false, ⟨last, rest⟩) :=
        acceptSymbol_of_ne fun heq => hrest (heq ▸ by decide)
      rw [List.drop_length, Nat.add_zero, binary, power,
        bind_of_ok (unary_literal hstart hprimary hrest), bind_of_ok rfl, bind_of_ok hstar]
      rfl
  | succ distance ih =>
      have hlt : level < levels.length := by omega
      have hends : EndsAt level rest := endsAt_of_continuation hrest
      rw [List.drop_eq_getElem_cons hlt, ← Nat.add_assoc, binary,
        bind_of_ok (ih (Nat.add_right_comm level 1 distance ▸ hlevel)), Nat.add_right_comm left 4,
        binaryRest, bind_of_ok rfl, bind_of_ok (acceptOperator_of_endsAt hlt hends)]
      rfl

/-- A literal that no operator follows is the whole expression. -/
theorem expression_literal :
    expression (left + 17) ⟨previous, tokens⟩ = .ok (e, ⟨last, rest⟩) := by
  have hbinary : binary (left + 15) levels ⟨previous, tokens⟩ = .ok (e, ⟨last, rest⟩) :=
    binary_literal hstart hprimary hrest (Nat.zero_add _)
  have harrow : startsArrow tokens = false := by
    obtain ⟨l, others, rfl | ⟨x, rfl⟩⟩ := hstart.exists_cons
    · rfl
    · rfl
  exact expression_of_binary hbinary harrow hrest

end Levels

/-! ## Trees -/

theorem startsLiteral_kinds {tree : NumberTree} (hkinds : tokens.map Token.kind = tree.kinds) :
    StartsLiteral (tokens ++ rest) := by
  cases tokens with
  | nil => cases tree <;> cases hkinds
  | cons token tokens =>
      cases tree with
      | leaf n => exact Or.inr ⟨leafNumber n, (List.cons.inj hkinds).1⟩
      | node children => exact Or.inl (List.cons.inj hkinds).1

/-- The tokens of the tree are read as a literal of it, up to their end. -/
def IsReadBack (tree : NumberTree) : Prop :=
  ∀ {tokens rest : List Token} {previous : Location} {left : Nat},
    tokens.map Token.kind = tree.kinds → nextKind rest ∉ continuationKinds →
    stepsPerToken * tokens.length ≤ left →
    ∃ e last, Denotes tree e ∧
      expression left ⟨previous, tokens ++ rest⟩ = .ok (e, ⟨last, rest⟩)

theorem isReadBack_leaf (n : Nat) : IsReadBack (.leaf n) := by
  intro tokens rest previous left hkinds hrest hleft
  have hstart : StartsLiteral (tokens ++ rest) := startsLiteral_kinds hkinds
  obtain ⟨⟨kind, l⟩, rfl, rfl⟩ := List.map_eq_singleton_iff.mp hkinds
  obtain ⟨left, rfl⟩ : ∃ k, left = k + 17 := Nat.exists_eq_add_of_le' (by
    rw [stepsPerToken, List.length_singleton] at hleft
    omega)
  exact ⟨_, l, .leaf n l, expression_literal hstart rfl hrest⟩

/-- An item of a list is read, and then a comma decides whether others follow. -/
theorem elements_literal (hstart : StartsLiteral tokens)
    (hexpression : expression left ⟨previous, tokens⟩ = .ok (e, ⟨last, rest⟩)) :
    elements (left + 1) .rightBracket ⟨previous, tokens⟩ =
      (do
        if ← acceptSymbol .comma then return .item e :: (← elements left .rightBracket)
        else return [.item e] : Reader (List Element)) ⟨last, rest⟩ := by
  have hplain : seesSymbol .rightBracket ⟨previous, tokens⟩ = .ok (false, ⟨previous, tokens⟩) ∧
      atEnd ⟨previous, tokens⟩ = .ok (false, ⟨previous, tokens⟩) ∧
      acceptSymbol .ellipsis ⟨previous, tokens⟩ = .ok (false, ⟨previous, tokens⟩) := by
    obtain ⟨l, others, rfl | ⟨x, rfl⟩⟩ := hstart.exists_cons
    · exact ⟨rfl, rfl, rfl⟩
    · exact ⟨rfl, rfl, rfl⟩
  obtain ⟨hclose, hend, hellipsis⟩ := hplain
  rw [elements, bind_of_ok hclose, bind_of_ok hend]
  simp only [Bool.or_self, Bool.false_eq_true, if_false]
  rw [bind_of_ok rfl, bind_of_ok (by rw [bind_of_ok hellipsis]; exact bind_of_ok hexpression)]

/-- The items of a list of trees are read up to the closing bracket. -/
theorem elements_kinds {children : List NumberTree}
    (hchildren : ∀ child ∈ children, IsReadBack child)
    (hkinds : tokens.map Token.kind = NumberTree.kindsOfAll children)
    (hleft : stepsPerToken * tokens.length + 1 ≤ left) (previous l : Location)
    (rest : List Token) :
    ∃ (items : List (NumberTree × Expr)) (last : Location), items.map Prod.fst = children ∧
      (∀ item ∈ items, Denotes item.1 item.2) ∧
      elements left .rightBracket ⟨previous, tokens ++ ⟨.symbol .rightBracket, l⟩ :: rest⟩ =
        .ok (items.map fun item => .item item.2, ⟨last, ⟨.symbol .rightBracket, l⟩ :: rest⟩) := by
  induction children generalizing tokens left previous with
  | nil =>
      obtain ⟨left, rfl⟩ : ∃ k, left = k + 1 := Nat.exists_eq_add_of_le' (by omega)
      obtain rfl : tokens = [] := List.map_eq_nil_iff.mp hkinds
      exact ⟨[], previous, rfl, List.forall_mem_nil _, rfl⟩
  | cons child children ih =>
      obtain ⟨left, rfl⟩ : ∃ k, left = k + 1 := Nat.exists_eq_add_of_le' (by omega)
      obtain ⟨hchild, hothers⟩ := List.forall_mem_cons.mp hchildren
      cases children with
      | nil =>
          have hfits : stepsPerToken * tokens.length ≤ left := Nat.le_of_succ_le_succ hleft
          have hclosing : nextKind (⟨.symbol .rightBracket, l⟩ :: rest) ∉ continuationKinds := by
            change .symbol .rightBracket ∉ continuationKinds
            decide
          obtain ⟨e, last, hdenotes, hexpression⟩ := hchild hkinds hclosing hfits
          refine ⟨[(child, e)], last, rfl, List.forall_mem_singleton.mpr hdenotes, ?_⟩
          rw [elements_literal (startsLiteral_kinds hkinds) hexpression]
          rfl
      | cons next others =>
          obtain ⟨first, behind, rfl, hfirst, hbehind⟩ := List.map_eq_append_iff.mp hkinds
          obtain ⟨⟨kind, l'⟩, second, rfl, rfl, hsecond⟩ := List.map_eq_cons_iff.mp hbehind
          have hcomma : nextKind (⟨.symbol .comma, l'⟩ ::
              (second ++ ⟨.symbol .rightBracket, l⟩ :: rest)) ∉ continuationKinds := by
            change .symbol .comma ∉ continuationKinds
            decide
          have hfits : stepsPerToken * first.length ≤ left ∧
              stepsPerToken * second.length + 1 ≤ left := by
            rw [stepsPerToken, List.length_append, List.length_cons] at hleft
            rw [stepsPerToken]
            omega
          obtain ⟨e, last, hdenotes, hexpression⟩ := hchild hfirst hcomma hfits.1
          obtain ⟨items, last', hitems, hall, helements⟩ := ih hothers hsecond hfits.2 l'
          refine ⟨(child, e) :: items, last', by rw [List.map_cons, hitems],
            List.forall_mem_cons.mpr ⟨hdenotes, hall⟩, ?_⟩
          rw [List.append_assoc, List.cons_append,
            elements_literal (startsLiteral_kinds hfirst) hexpression,
            bind_of_ok (acceptSymbol_of_eq .comma), if_pos rfl, bind_of_ok helements]
          rfl

theorem isReadBack_node {children : List NumberTree}
    (hchildren : ∀ child ∈ children, IsReadBack child) : IsReadBack (.node children) := by
  intro tokens rest previous left hkinds hrest hleft
  have hstart : StartsLiteral (tokens ++ rest) := startsLiteral_kinds hkinds
  obtain ⟨⟨kind, l⟩, behind, rfl, rfl, hbehind⟩ := List.map_eq_cons_iff.mp hkinds
  obtain ⟨inner, closing, rfl, hinner, hclosing⟩ := List.map_eq_append_iff.mp hbehind
  obtain ⟨⟨kind, l'⟩, rfl, rfl⟩ := List.map_eq_singleton_iff.mp hclosing
  obtain ⟨left, rfl, hfits⟩ : ∃ k, left = k + 17 ∧ stepsPerToken * inner.length + 1 ≤ k := by
    rw [stepsPerToken, List.length_cons, List.length_append, List.length_singleton] at hleft
    obtain ⟨k, rfl⟩ : ∃ k, left = k + 17 := Nat.exists_eq_add_of_le' (by omega)
    refine ⟨k, rfl, ?_⟩
    rw [stepsPerToken]
    omega
  obtain ⟨items, last, rfl, hall, helements⟩ := elements_kinds hchildren hinner hfits l l' rest
  have hprimary : primary (left + 1) ⟨previous, ⟨.symbol .leftBracket, l⟩ ::
      (inner ++ ⟨.symbol .rightBracket, l'⟩ :: rest)⟩ =
        .ok (.array (items.map fun item => .item item.2) l, ⟨l', rest⟩) := by
    have hatom : acceptAtom ⟨previous, ⟨.symbol .leftBracket, l⟩ ::
        (inner ++ ⟨.symbol .rightBracket, l'⟩ :: rest)⟩ = .ok (none, ⟨previous, _⟩) := rfl
    have hclose : expect (.symbol .rightBracket) "']' after array elements"
        ⟨last, ⟨.symbol .rightBracket, l'⟩ :: rest⟩ = .ok ((), ⟨l', rest⟩) := rfl
    rw [primary, bind_of_ok rfl, bind_of_ok hatom]
    dsimp only
    rw [bind_of_ok rfl, if_neg (by exact Bool.false_ne_true),
      bind_of_ok (acceptSymbol_of_eq .leftBracket), if_pos rfl, bind_of_ok helements,
      bind_of_ok hclose]
    rfl
  refine ⟨_, l', .node l hall, ?_⟩
  rw [List.cons_append, List.append_assoc] at hstart ⊢
  exact expression_literal hstart hprimary hrest

/-- **Literals.** The tokens of a tree are read as a literal of it. -/
theorem isReadBack (tree : NumberTree) : IsReadBack tree :=
  NumberTree.induction isReadBack_leaf (fun _ => isReadBack_node) tree

/-! ## Declarations -/

section Declarations

variable {x : String} {l' : Location} (hvalue : expression left ⟨l', tokens⟩ =
  .ok (e, ⟨last, ⟨.symbol .semicolon, l⟩ :: rest⟩))

include hvalue

theorem declarators_value (previous place : Location) :
    declarators (left + 1) .letDecl
        ⟨previous, ⟨.name x, place⟩ :: ⟨.symbol .assign, l'⟩ :: tokens⟩ =
      .ok ([.mk (.name x) (some e)], ⟨last, ⟨.symbol .semicolon, l⟩ :: rest⟩) := by
  have hbinder : binder ⟨previous, ⟨.name x, place⟩ :: ⟨.symbol .assign, l'⟩ :: tokens⟩ =
      .ok (.name x, ⟨place, ⟨.symbol .assign, l'⟩ :: tokens⟩) := rfl
  rw [declarators, bind_of_ok hbinder, bind_of_ok (by
    rw [bind_of_ok (acceptSymbol_of_eq .assign), if_pos rfl]
    exact bind_of_ok hvalue)]
  rfl

/-- A declaration of one name is read if its initial value is. -/
theorem statement_declare (previous start place : Location) :
    statement (left + 2) ⟨previous, ⟨.keyword .letKw, start⟩ :: ⟨.name x, place⟩ ::
        ⟨.symbol .assign, l'⟩ :: tokens⟩ =
      .ok (.declare .letDecl [.mk (.name x) (some e)] start, ⟨l, rest⟩) := by
  have hend : endStatement "after declaration" ⟨last, ⟨.symbol .semicolon, l⟩ :: rest⟩ =
      .ok ((), ⟨l, rest⟩) := rfl
  have hkind : acceptDeclKind ⟨previous, ⟨.keyword .letKw, start⟩ :: ⟨.name x, place⟩ ::
      ⟨.symbol .assign, l'⟩ :: tokens⟩ = .ok (some .letDecl, ⟨start, _⟩) := rfl
  rw [statement, bind_of_ok rfl, bind_of_ok rfl, if_neg Bool.false_ne_true, bind_of_ok rfl,
    if_neg (by exact Bool.false_ne_true), bind_of_ok hkind]
  dsimp only
  rw [bind_of_ok (declarators_value hvalue _ _), bind_of_ok hend]
  rfl

end Declarations

/-- The tokens of a declaration whose initial value is a tree are read as one statement. -/
theorem parseTokens_declaration {tree : NumberTree} (x : String) (l₁ l₂ l₃ l₄ l₅ : Location)
    (hkinds : tokens.map Token.kind = tree.kinds) :
    ∃ e, Denotes tree e ∧
      parseTokens (⟨.keyword .letKw, l₁⟩ :: ⟨.name x, l₂⟩ :: ⟨.symbol .assign, l₃⟩ ::
          (tokens ++ [⟨.symbol .semicolon, l₄⟩, ⟨.endOfInput, l₅⟩])) =
        .ok [.declare .letDecl [.mk (.name x) (some e)] l₁] := by
  let behind : List Token := [⟨.symbol .semicolon, l₄⟩, ⟨.endOfInput, l₅⟩]
  let all : List Token := ⟨.keyword .letKw, l₁⟩ :: ⟨.name x, l₂⟩ :: ⟨.symbol .assign, l₃⟩ ::
    (tokens ++ behind)
  obtain ⟨left, hleft, hfits⟩ : ∃ left, stepsPerToken * (all.length + 1) = left + 2 ∧
      stepsPerToken * tokens.length ≤ left := by
    refine ⟨stepsPerToken * (all.length + 1) - 2, ?_, ?_⟩
    · simp only [stepsPerToken, all, List.length_cons]
      omega
    · simp only [stepsPerToken, all, List.length_cons, List.length_append]
      omega
  have hsemicolon : nextKind behind ∉ continuationKinds := by
    change .symbol .semicolon ∉ continuationKinds
    decide
  obtain ⟨e, last, hdenotes, hvalue⟩ : ∃ e last, Denotes tree e ∧
      expression left ⟨l₃, tokens ++ behind⟩ = .ok (e, ⟨last, behind⟩) :=
    isReadBack tree hkinds hsemicolon hfits
  refine ⟨e, hdenotes, ?_⟩
  have hstatement := statement_declare (x := x) hvalue l₁ l₁ l₂
  have hprogram : programStatements (left + 2) (all.length + 1) ⟨l₁, all⟩ =
      .ok ([.declare .letDecl [.mk (.name x) (some e)] l₁], ⟨l₄, [⟨.endOfInput, l₅⟩]⟩) := by
    have hend : programStatements (left + 2) all.length ⟨l₄, [⟨.endOfInput, l₅⟩]⟩ =
        .ok ([], ⟨l₄, [⟨.endOfInput, l₅⟩]⟩) := rfl
    rw [programStatements, bind_of_ok rfl, if_neg (by exact Bool.false_ne_true),
      bind_of_ok hstatement, bind_of_ok hend]
    rfl
  change (programStatements (stepsPerToken * (all.length + 1)) (all.length + 1) ⟨l₁, all⟩).map
    (·.1) = _
  rw [hleft, hprogram]
  rfl

/-- The tokens of a declaration that is printed with a tree. -/
theorem tokensFrom_declaration {name text : List Char} {tree : NumberTree}
    (hname : IsIdentifier name) (htext : Prints '[' ']' tree text) (left : Nat) :
    ∃ tokens l₁ l₂ l₃ l₄ l₅, tokens.map Token.kind = tree.kinds ∧
      tokensFrom (left + tree.kinds.length + 5) ⟨1, 1⟩
          (variableText ['l', 'e', 't'] [' '] name text) =
        .ok (⟨.keyword .letKw, l₁⟩ :: ⟨.name (String.ofList name), l₂⟩ :: ⟨.symbol .assign, l₃⟩ ::
          (tokens ++ [⟨.symbol .semicolon, l₄⟩, ⟨.endOfInput, l₅⟩])) := by
  have hsemicolon : (';', Symbol.semicolon) ∈ marks := by decide
  let value := text ++ [';']
  let behind := ' ' :: '=' :: ' ' :: value
  let l₁ : Location := ⟨1, 1⟩
  let l₂ : Location := (l₁.after ['l', 'e', 't']).next ' '
  let l₃ : Location := (l₂.after name).next ' '
  let l₄ : Location := (l₃.next '=').next ' '
  have hend : tokensFrom (left + 2) (l₄.after text) [';'] =
      .ok [⟨.symbol .semicolon, l₄.after text⟩, ⟨.endOfInput, (l₄.after text).next ';'⟩] :=
    tokensFrom_mark hsemicolon rfl
  obtain ⟨tokens, hkinds, htokens⟩ := htext.lexesAs.cut _ _ _ _ (.mark hsemicolon) hend
  have hfuel : left + 1 + 1 + tree.kinds.length = left + tree.kinds.length + 1 + 1 := by omega
  rw [hfuel, ← tokensFrom_blank (c := ' ') rfl] at htokens
  have hassign : lexeme '=' (' ' :: value) = .ok ⟨.symbol .assign, ['='], ' ' :: value⟩ := rfl
  have hgap : skipGap .open (l₂.after name) behind = .ok (l₃, '=' :: ' ' :: value) := rfl
  have hbehind := tokensFrom_cons hgap hassign htokens
  have hdeclared := tokensFrom_identifier hname rfl hbehind
  rw [← tokensFrom_blank (c := ' ') rfl] at hdeclared
  have hlet : lexeme 'l' ('e' :: 't' :: ' ' :: (name ++ behind)) =
      .ok ⟨.keyword .letKw, ['l', 'e', 't'], ' ' :: (name ++ behind)⟩ := rfl
  exact ⟨tokens, _, _, _, _, _, hkinds, tokensFrom_cons rfl hlet hdeclared⟩

/-- **Declarations of literals.** A declaration whose initial value is printed as a tree is read as
the declaration of a literal of the tree. -/
theorem parse_declaration {name text : List Char} {tree : NumberTree} (hname : IsIdentifier name)
    (htext : Prints '[' ']' tree text) :
    ∃ e l, Denotes tree e ∧
      parse (String.ofList (variableText ['l', 'e', 't'] [' '] name text)) =
        .ok [.declare .letDecl [.mk (.name (String.ofList name)) (some e)] l] := by
  let all := variableText ['l', 'e', 't'] [' '] name text
  obtain ⟨left, hleft⟩ : ∃ left, all.length + 1 = left + tree.kinds.length + 5 := by
    have hfits : tree.kinds.length ≤ text.length := htext.lexesAs.fits
    have hlength : all.length = text.length + name.length + 8 := by
      simp [all, variableText]
      omega
    exact ⟨text.length - tree.kinds.length + name.length + 4, by omega⟩
  obtain ⟨tokens, l₁, l₂, l₃, l₄, l₅, hkinds, htokens⟩ := tokensFrom_declaration hname htext left
  obtain ⟨e, hdenotes, hparse⟩ :=
    parseTokens_declaration (String.ofList name) l₁ l₂ l₃ l₄ l₅ hkinds
  rw [← hleft] at htokens
  exact ⟨e, l₁, hdenotes, (parse_of_tokensFrom htokens).trans hparse⟩

end StepTrace.Syntax
