import StepTrace.Capture.Placement
import StepTrace.Proofs.Locations
import StepTrace.Proofs.Readers
import StepTrace.Proofs.Words

/-!
# Parsed programs

A capture is no part of any written program, so whatever the parser reads has none
(`captures_parse`), it binds names only that are words of the text (`written_parse`), and its
nodes are at places where tokens start (`sited_parse`). The functions of the parser call each
other, so what they read is stated for all of them together (`ReadsPlain`), and the induction is
on the bound of the descent.

Names are taken where an expression, a declaration or a parameter begins, and no such place
is right behind a numeral. So what the functions need and leave is a property of the next
token (`Whole`), which holds behind every symbol and keyword.

The place of a node is looked up before it is known whether there is a token to be read, and the
end of the text is at no place of a token. So what is known of a place is known only if a token
is read there, which every expression does.

* `Reader.Yields`: what is known of everything that a reader reads, and of the token behind.
-/

namespace StepTrace.Syntax

open Capture

/-! ## The token to be read next -/

/-- Neither a numeral nor the end of the text. -/
def Kind.isMark : Kind → Bool
  | .number _ | .bigint _ | .endOfInput => false
  | _ => true

theorem Kind.isNumeral_of_isMark {kind : Kind} (h : kind.isMark = true) :
    kind.isNumeral = false := by
  cases kind <;> first | rfl | cases h

theorem Kind.ne_end_of_isMark {kind : Kind} (h : kind.isMark = true) : kind ≠ .endOfInput := by
  rintro rfl
  cases h

/-- The tokens still to be read follow the one that was taken last, and stand at places with the
property. -/
structure Input.Follows (Named : String → Prop) (Sited : Location → Prop) (input : Input) :
    Prop where
  chain : ∃ token : Token, token.loc = input.previous ∧
    List.IsChain (Adjacent Named) (token :: input.tokens)
  sited : ∀ token ∈ input.tokens, token.kind ≠ .endOfInput → Sited token.loc

/-- The token is one that has the property if it is a name. -/
def Whole (Named : String → Prop) (token : Token) : Prop :=
  ∀ x, token.kind = .name x → Named x

/-- Nothing is known of the token. -/
def Any (_ : Token) : Prop :=
  True

namespace Input.Follows

variable {Named : String → Prop} {Sited : Location → Prop} {input : Input}

theorem advance (h : input.Follows Named Sited) : input.advance.Follows Named Sited := by
  obtain ⟨⟨token, hloc, hchain⟩, hsited⟩ := h
  unfold Input.advance
  split
  · exact ⟨⟨token, hloc, hchain⟩, hsited⟩
  · rename_i next rest htokens
    split
    · exact ⟨⟨token, hloc, hchain⟩, hsited⟩
    · rw [htokens] at hchain hsited
      exact ⟨⟨next, rfl, hchain.tail⟩, fun token htoken =>
        hsited token (List.mem_cons_of_mem _ htoken)⟩

/-- A token that can be taken is at a place with the property. -/
theorem sited_peek (h : input.Follows Named Sited) (hend : input.peek.kind ≠ .endOfInput) :
    Sited input.peek.loc := by
  obtain ⟨previous, tokens⟩ := input
  cases tokens with
  | nil => exact absurd rfl hend
  | cons next rest => exact h.sited next List.mem_cons_self hend

/-- Behind a token that is no numeral every name is whole. -/
theorem whole_advance (h : input.Follows Named Sited)
    (hkind : input.peek.kind.isNumeral = false) : Whole Named input.advance.peek := by
  obtain ⟨⟨token, hloc, hchain⟩, -⟩ := h
  obtain ⟨previous, tokens⟩ := input
  cases tokens with
  | nil => rintro x ⟨⟩
  | cons next rest =>
      change Whole Named
        (if next.kind = .endOfInput then (⟨previous, next :: rest⟩ : Input)
          else ⟨next.loc, rest⟩).peek
      split
      · rename_i hend
        intro x hx
        exact absurd (hend.symm.trans hx) (by simp)
      · cases rest with
        | nil => rintro x ⟨⟩
        | cons after rest =>
            have hnext : Adjacent Named next after := by
              rw [List.isChain_cons_cons, List.isChain_cons_cons] at hchain
              exact hchain.2.1
            intro x hx
            refine hnext x hx fun hnumeral => ?_
            exact absurd (hkind.symm.trans hnumeral) (by simp)

/-- On a new line every name is whole. -/
theorem whole_of_line (h : input.Follows Named Sited)
    (hline : input.previous.line < input.peek.loc.line) : Whole Named input.peek := by
  obtain ⟨⟨token, hloc, hchain⟩, -⟩ := h
  obtain ⟨previous, tokens⟩ := input
  cases tokens with
  | nil => rintro x ⟨⟩
  | cons next rest =>
      rw [List.isChain_cons_cons] at hchain
      intro x hx
      refine hchain.1 x hx fun _ hsame => ?_
      rw [hloc] at hsame
      exact absurd hsame (Nat.ne_of_lt hline)

end Input.Follows

/-! ## Readers -/

/-- Where the next token has the one property, and `told` holds if it can be taken, everything
that the reader reads is good, and the token behind it has the other property. -/
def Reader.Yields (Named : String → Prop) (Sited : Location → Prop) (told : Prop)
    (before behind : Token → Prop) {α : Type} (good : α → Prop) (reader : Reader α) : Prop :=
  ∀ input a rest, input.Follows Named Sited → (input.peek.kind ≠ .endOfInput → told) →
    before input.peek → reader input = .ok (a, rest) →
    good a ∧ rest.Follows Named Sited ∧ behind rest.peek

namespace Reader.Yields

variable {Named : String → Prop} {Sited : Location → Prop} {told told' : Prop}
  {before middle behind : Token → Prop} {α β : Type} {good : α → Prop} {next : β → Prop}
  {m : Reader α} {f : α → Reader β}

theorem pure {a : α} (h : good a) (hbehind : ∀ token, before token → behind token) :
    Yields Named Sited told before behind good (pure a) := by
  rintro input a rest hinput - htoken ⟨⟩
  exact ⟨h, hinput, hbehind _ htoken⟩

theorem failAt (loc : Location) (fault : Fault) :
    Yields Named Sited told before behind good (failAt loc fault) := by
  rintro input a rest - - - ⟨⟩

theorem bind (hm : Yields Named Sited told before middle good m)
    (hf : ∀ a, good a → Yields Named Sited True middle behind next (f a)) :
    Yields Named Sited told before behind next (m >>= f) := by
  intro input b rest hinput htold htoken h
  obtain ⟨a, input', hread, hgoes⟩ := Reader.bind_ok h
  obtain ⟨hgood, hfollows, hmiddle⟩ := hm input a input' hinput htold htoken hread
  exact hf a hgood input' b rest hfollows (fun _ => trivial) hmiddle hgoes

theorem mono {before' behind' : Token → Prop} (hm : Yields Named Sited told before behind good m)
    (hbefore : ∀ token, before' token → before token)
    (hbehind : ∀ token, behind token → behind' token) :
    Yields Named Sited told before' behind' good m := by
  intro input a rest hinput htold htoken h
  obtain ⟨hgood, hfollows, hrest⟩ := hm input a rest hinput htold (hbefore _ htoken) h
  exact ⟨hgood, hfollows, hbehind _ hrest⟩

/-- Where less has to be known of what is read. -/
theorem imp {good' : α → Prop} (hm : Yields Named Sited told before behind good m)
    (hgood : ∀ a, good a → good' a) : Yields Named Sited told before behind good' m := by
  intro input a rest hinput htold htoken h
  obtain ⟨ha, hfollows, hrest⟩ := hm input a rest hinput htold htoken h
  exact ⟨hgood a ha, hfollows, hrest⟩

/-- Where nothing has to be told. -/
theorem weaken (hm : Yields Named Sited True before behind good m) :
    Yields Named Sited told before behind good m :=
  fun input a rest hinput _ htoken h => hm input a rest hinput (fun _ => trivial) htoken h

/-- Where nothing is taken. -/
theorem look (g : Input → α) (hf : ∀ a, Yields Named Sited told before behind next (f a)) :
    Yields Named Sited told before behind next
      ((fun input => .ok (g input, input) : Reader α) >>= f) :=
  fun input b rest hinput htold htoken h => hf (g input) input b rest hinput htold htoken h

/-- Where the place of the next token is looked up. -/
theorem here {f : Location → Reader β}
    (hf : ∀ l, Yields Named Sited (told ∧ Sited l) before behind next (f l)) :
    Yields Named Sited told before behind next (Reader.here >>= f) := by
  intro input b rest hinput htold htoken h
  have hplace (hend : input.peek.kind ≠ .endOfInput) : told ∧ Sited input.peek.loc :=
    ⟨htold hend, hinput.sited_peek hend⟩
  exact hf input.peek.loc input b rest hinput hplace htoken h

/-- Where it is decided by looking at the next tokens how to go on. -/
theorem choice (g : Input → Bool) {r r' : Reader β}
    (hr : Yields Named Sited told before behind next r)
    (hr' : Yields Named Sited told before behind next r') :
    Yields Named Sited told before behind next
      ((fun input => .ok (g input, input) : Reader Bool) >>=
        fun holds => if holds then r else r') := by
  refine look g fun holds => ?_
  split
  · exact hr
  · exact hr'

/-- Where a token that is no numeral is taken if it is next. -/
theorem taking {kind : Kind} (hkind : kind.isMark = true) {r r' : Reader β}
    (hr : told → Yields Named Sited True (Whole Named) behind next r)
    (hr' : Yields Named Sited told before behind next r') :
    Yields Named Sited told before behind next
      (accept kind >>= fun holds => if holds then r else r') := by
  intro input b rest hinput htold htoken h
  change (accept kind input >>= fun read => (if read.1 then r else r') read.2) = .ok (b, rest) at h
  unfold accept at h
  split at h
  · rename_i hpeek
    rw [← hpeek] at hkind
    have hwhole := hinput.whole_advance (Kind.isNumeral_of_isMark hkind)
    exact hr (htold (Kind.ne_end_of_isMark hkind)) input.advance b rest hinput.advance
      (fun _ => trivial) hwhole h
  · exact hr' input b rest hinput htold htoken h

/-- Where a token that is no numeral may be taken, and something has to be taken behind it. -/
theorem accept {kind : Kind} (hkind : kind.isMark = true) {f : Bool → Reader β}
    (hf : ∀ holds, Yields Named Sited told (Whole Named) behind next (f holds)) :
    Yields Named Sited told (Whole Named) behind next (accept kind >>= f) := by
  intro input b rest hinput htold htoken h
  change (Reader.accept kind input >>= fun read => f read.1 read.2) = .ok (b, rest) at h
  unfold Reader.accept at h
  split at h
  · rename_i hpeek
    rw [← hpeek] at hkind
    have hwhole := hinput.whole_advance (Kind.isNumeral_of_isMark hkind)
    have htaken := htold (Kind.ne_end_of_isMark hkind)
    exact hf true input.advance b rest hinput.advance (fun _ => htaken) hwhole h
  · exact hf false input b rest hinput htold htoken h

/-- Where a token that is no numeral has to be next. -/
theorem expecting {kind : Kind} (hkind : kind.isMark = true) (what : String)
    {f : Unit → Reader β} (hf : Yields Named Sited True (Whole Named) behind next (f ())) :
    Yields Named Sited told before behind next (expect kind what >>= f) := by
  intro input b rest hinput _ htoken h
  change (expect kind what input >>= fun read => f read.1 read.2) = .ok (b, rest) at h
  unfold expect at h
  split at h
  · rename_i hpeek
    rw [← hpeek] at hkind
    have hwhole := hinput.whole_advance (Kind.isNumeral_of_isMark hkind)
    exact hf input.advance b rest hinput.advance (fun _ => trivial) hwhole h
  · cases h

/-- Where a statement has to end. -/
theorem ending (context : String) {f : Unit → Reader β}
    (hf : Yields Named Sited True (Whole Named) behind next (f ())) :
    Yields Named Sited told before behind next (endStatement context >>= f) := by
  intro input b rest hinput _ htoken h
  change (endStatement context input >>= fun read => f read.1 read.2) = .ok (b, rest) at h
  unfold endStatement at h
  split at h
  · rename_i hpeek
    have hwhole := hinput.whole_advance (by rw [hpeek]; rfl)
    exact hf input.advance b rest hinput.advance (fun _ => trivial) hwhole h
  · split at h
    · rename_i hend
      refine hf input b rest hinput (fun _ => trivial) ?_ h
      simp only [gt_iff_lt, Bool.or_eq_true, decide_eq_true_eq] at hend
      rcases hend with (hline | heoi) | hbrace
      · exact hinput.whole_of_line hline
      · intro x hx
        exact absurd (heoi.symm.trans hx) (by simp)
      · intro x hx
        exact absurd (hbrace.symm.trans hx) (by simp)
    · cases h

/-- Where a name has to be next. -/
theorem name : Yields Named Sited told (Whole Named) (Whole Named) (fun x => told ∧ Named x)
    Reader.name := by
  intro input x rest hinput htold htoken h
  unfold Reader.name at h
  split at h
  · rename_i text hpeek
    cases h
    exact ⟨⟨htold (by simp [hpeek]), htoken _ hpeek⟩, hinput.advance,
      hinput.whole_advance (by rw [hpeek]; rfl)⟩
  · cases h

theorem acceptName : Yields Named Sited told (Whole Named) (Whole Named)
    (fun x? => ∀ x ∈ x?, Named x) acceptName := by
  intro input x? rest hinput _ htoken h
  unfold Reader.acceptName at h
  split at h
  · rename_i text hpeek
    cases h
    refine ⟨?_, hinput.advance, hinput.whole_advance (by rw [hpeek]; rfl)⟩
    rintro _ ⟨⟩
    exact htoken _ hpeek
  · cases h
    refine ⟨?_, hinput, htoken⟩
    rintro _ ⟨⟩

/-- Where a token that is known to be no numeral is taken. -/
theorem skip (hbefore : ∀ token, before token → token.kind.isMark = true) :
    Yields Named Sited told before (Whole Named) (fun _ => told) skip := by
  rintro input _ rest hinput htold htoken ⟨⟩
  have hmark := hbefore _ htoken
  exact ⟨htold (Kind.ne_end_of_isMark hmark), hinput.advance,
    hinput.whole_advance (Kind.isNumeral_of_isMark hmark)⟩

/-- Where the reading goes back to a place that is remembered. -/
theorem remembering {f : Input → Reader β}
    (hf : ∀ saved : Input, saved.Follows Named Sited → before saved.peek →
      Yields Named Sited told before behind next (f saved)) :
    Yields Named Sited told before behind next (get >>= f) :=
  fun input b rest hinput htold htoken h =>
    hf input hinput htoken input b rest hinput htold htoken h

theorem goingBack {saved : Input} (hsaved : saved.Follows Named Sited)
    (hmiddle : middle saved.peek) {f : PUnit → Reader β}
    (hf : Yields Named Sited True middle behind next (f ⟨⟩)) :
    Yields Named Sited told before behind next (set saved >>= f) :=
  fun _ b rest _ _ _ h => hf saved b rest hsaved (fun _ => trivial) hmiddle h

theorem of_map (hm : Yields Named Sited True before behind good m) {input : Input}
    (hinput : input.Follows Named Sited) (htoken : before input.peek) {a : α}
    (h : (m input).map (·.1) = .ok a) : good a := by
  cases hread : m input with
  | error e =>
      rw [hread] at h
      cases h
  | ok read =>
      rw [hread] at h
      cases h
      exact (hm input read.1 read.2 hinput (fun _ => trivial) htoken hread).1

end Reader.Yields

/-! ## Operators and the words of declarations -/

theorem Reader.Takes.yields {Named : String → Prop} {Sited : Location → Prop} {told : Prop}
    {before behind : Token → Prop} {α β : Type} {next : β → Prop} {m : Reader (Option α)}
    {kinds : List Kind} (hm : m.Takes kinds) (hmarks : ∀ kind ∈ kinds, kind.isMark = true)
    {f : Option α → Reader β} (hnone : Yields Named Sited told before behind next (f none))
    (hsome : ∀ a, told → Yields Named Sited True (Whole Named) behind next (f (some a))) :
    Yields Named Sited told before behind next (m >>= f) := by
  intro input b rest hinput htold htoken h
  obtain ⟨a?, input', hread, hgoes⟩ := Reader.bind_ok h
  rcases hm input a? input' hread with ⟨rfl, rfl⟩ | ⟨⟨a, rfl⟩, hkind, rfl⟩
  · exact hnone _ b rest hinput htold htoken hgoes
  · have hmark := hmarks _ hkind
    exact hsome a (htold (Kind.ne_end_of_isMark hmark)) _ b rest hinput.advance
      (fun _ => trivial) (hinput.whole_advance (Kind.isNumeral_of_isMark hmark)) hgoes

theorem isMark_levelKinds (level : List OperatorOf) :
    ∀ kind ∈ levelKinds level, kind.isMark = true :=
  List.forall_mem_map.mpr fun _ _ => rfl

/-! ## Trees -/

section Trees

variable (Named : String → Prop) (Sited : Location → Prop)

/-- A tree without captures that binds names with the property only, its nodes at places with the
property. -/
abbrev Plain (lines : List Nat) (names : List String) (locs : List Location) : Prop :=
  ConfinedAt (fun _ => False) Named Sited lines names locs

abbrev PlainExpr (e : Expr) : Prop :=
  Plain Named Sited (exprCaptures e) (exprNames e) (exprLocs e)

abbrev PlainPlace (p : Place) : Prop :=
  Plain Named Sited (placeCaptures p) (placeNames p) (placeLocs p)

abbrev PlainPlaces (ps : List Place) : Prop :=
  Plain Named Sited (placesCaptures ps) (placesNames ps) (placesLocs ps)

abbrev PlainTarget (t : Target) : Prop :=
  Plain Named Sited (targetCaptures t) (targetNames t) (targetLocs t)

abbrev PlainElements (es : List Element) : Prop :=
  Plain Named Sited (elementCaptures es) (elementNames es) (elementLocs es)

abbrev PlainFields (fs : List (String × Expr)) : Prop :=
  Plain Named Sited (fieldCaptures fs) (fieldNames fs) (fieldLocs fs)

abbrev PlainFunction (f : Function) : Prop :=
  Plain Named Sited (functionCaptures f) (functionNames f) (functionLocs f)

abbrev PlainDeclarators (ds : List Declarator) : Prop :=
  Plain Named Sited (declaratorCaptures ds) (declaratorNames ds) (declaratorLocs ds)

abbrev PlainOptional (e : Option Expr) : Prop :=
  Plain Named Sited (optionalCaptures e) (optionalNames e) (optionalLocs e)

abbrev PlainStart (first : ForStart) : Prop :=
  Plain Named Sited (startCaptures first) (startNames first) (startLocs first)

abbrev PlainStmt (stmt : Stmt) : Prop :=
  Plain Named Sited (stmtCaptures stmt) (stmtNames stmt) (stmtLocs stmt)

abbrev PlainStmts (stmts : List Stmt) : Prop :=
  Plain Named Sited (captures stmts) (boundNames stmts) (locs stmts)

variable {Named Sited}

/-- A node without parts. -/
theorem plain_leaf {l : Location} (hl : Sited l) : Plain Named Sited [] [] [l] :=
  ConfinedAt.node_iff.mpr ⟨hl, ConfinedAt.nil⟩

theorem place?_plain {e : Expr} {p : Place} (h : e.place? = some p)
    (he : PlainExpr Named Sited e) : PlainPlace Named Sited p := by
  rw [← Expr.expr_of_place? h] at he
  cases p <;> exact he

theorem plain_places {ps : List Place}
    (hes : PlainElements Named Sited (ps.map (.item ·.expr))) : PlainPlaces Named Sited ps := by
  induction ps with
  | nil => exact hes
  | cons p rest ih =>
      obtain ⟨he, hrest⟩ := ConfinedAt.append_iff.mp hes
      exact ConfinedAt.append_iff.mpr ⟨place?_plain p.place?_expr he, ih hrest⟩

theorem target?_plain {e : Expr} {t : Target} (h : e.target? = some t)
    (he : PlainExpr Named Sited e) : PlainTarget Named Sited t := by
  rw [← Expr.expr_of_target? h] at he
  cases t with
  | single p => exact place?_plain p.place?_expr he
  | list ps l =>
      obtain ⟨hl, hes⟩ := ConfinedAt.node_iff.mp he
      exact ConfinedAt.node_iff.mpr ⟨hl, plain_places hes⟩

/-! ## Members of lists -/

theorem elements_plain_cons {e : Element} {rest : List Element}
    (he : PlainElements Named Sited [e]) (hrest : PlainElements Named Sited rest) :
    PlainElements Named Sited (e :: rest) := by
  cases e with
  | item e => exact ConfinedAt.append_iff.mpr ⟨(ConfinedAt.append_iff.mp he).1, hrest⟩
  | spread e l =>
      obtain ⟨hl, he⟩ := ConfinedAt.node_iff.mp he
      exact ConfinedAt.node_iff.mpr
        ⟨hl, ConfinedAt.append_iff.mpr ⟨(ConfinedAt.append_iff.mp he).1, hrest⟩⟩

theorem declarators_plain_cons {target : Binder} {value : Option Expr} {rest : List Declarator}
    (htarget : ∀ x ∈ target.names, Named x) (hvalue : PlainOptional Named Sited value)
    (hrest : PlainDeclarators Named Sited rest) :
    PlainDeclarators Named Sited (.mk target value :: rest) := by
  cases value with
  | none => exact ConfinedAt.binding_iff.mpr ⟨htarget, hrest⟩
  | some e =>
      exact ConfinedAt.binding_iff.mpr ⟨htarget, ConfinedAt.append_iff.mpr ⟨hvalue, hrest⟩⟩

end Trees

/-! ## Names, atoms and the starts of functions -/

section Parts

open Reader

variable {Named : String → Prop} {Sited : Location → Prop} {told : Prop}

theorem nameList_yields (left : Nat) :
    Yields Named Sited told (Whole Named) Any (fun names => ∀ x ∈ names, Named x)
      (nameList left) := by
  induction left generalizing told with
  | zero => exact Yields.look _ fun l => Yields.failAt l _
  | succ left ih =>
      unfold nameList
      refine Yields.name.bind fun x hx => Yields.taking rfl (fun _ => ?_) ?_
      · refine ih.bind fun names hnames => Yields.pure ?_ fun _ _ => trivial
        exact List.forall_mem_cons.mpr ⟨hx.2, hnames⟩
      · refine Yields.pure ?_ fun _ _ => trivial
        exact List.forall_mem_cons.mpr ⟨hx.2, by simp⟩

theorem parameters_yields :
    Yields Named Sited told (Whole Named) Any (fun names => ∀ x ∈ names, Named x) parameters := by
  unfold parameters
  refine Yields.choice _ ?_ ?_
  · exact Yields.pure (by simp) fun _ _ => trivial
  · exact Yields.look _ fun tokens => nameList_yields _

theorem binderNames_yields (left : Nat) :
    Yields Named Sited told (Whole Named) Any (fun names => ∀ x ∈ names, Named x)
      (binderNames left) := by
  induction left generalizing told with
  | zero => exact Yields.look _ fun l => Yields.failAt l _
  | succ left ih =>
      unfold binderNames
      refine Yields.choice _ ?_ ?_
      · exact Yields.pure (by simp) fun _ _ => trivial
      · refine Yields.name.bind fun x hx => Yields.taking rfl (fun _ => ?_) ?_
        · refine ih.bind fun names hnames => Yields.pure ?_ fun _ _ => trivial
          exact List.forall_mem_cons.mpr ⟨hx.2, hnames⟩
        · refine Yields.pure ?_ fun _ _ => trivial
          exact List.forall_mem_cons.mpr ⟨hx.2, by simp⟩

theorem binder_yields :
    Yields Named Sited told (Whole Named) (Whole Named) (fun target => ∀ x ∈ target.names, Named x)
      binder := by
  unfold binder
  refine Yields.taking rfl (fun _ => ?_) ?_
  · refine Yields.look _ fun tokens => (binderNames_yields _).bind fun names hnames => ?_
    exact Yields.expecting rfl _ (Yields.pure hnames fun _ h => h)
  · refine Yields.name.bind fun x hx => Yields.pure ?_ fun _ h => h
    exact List.forall_mem_cons.mpr ⟨hx.2, by simp⟩

theorem fieldName_yields {before : Token → Prop} :
    Yields Named Sited told before Any (fun _ => told) fieldName := by
  intro input x rest hinput htold _ h
  unfold fieldName at h
  split at h
  all_goals
    rename_i hpeek
    cases h
  all_goals exact ⟨htold (by simp [hpeek]), hinput.advance, trivial⟩

/-- Where a literal or a name may be the whole expression. -/
theorem acceptAtom_yields {before behind : Token → Prop} {β : Type} {next : β → Prop}
    {f : Option Expr → Reader β} (hnone : Yields Named Sited told before behind next (f none))
    (hsome : ∀ e, told → PlainExpr Named Sited e →
      Yields Named Sited True Any behind next (f (some e))) :
    Yields Named Sited told before behind next (acceptAtom >>= f) := by
  intro input b rest hinput htold htoken h
  change (acceptAtom input >>= fun read => f read.1 read.2) = .ok (b, rest) at h
  unfold acceptAtom at h
  dsimp only at h
  split at h
  case h_8 => exact hnone input b rest hinput htold htoken h
  all_goals
    rename_i hpeek
    have hend : input.peek.kind ≠ .endOfInput := by simp [hpeek]
    exact hsome _ (htold hend) (plain_leaf (hinput.sited_peek hend)) input.advance b rest
      hinput.advance (fun _ => trivial) trivial h

/-- The word `function` is next, or behind the word `async`. -/
theorem peek_of_startsFunction {input : Input} (h : startsFunction input.tokens = true) :
    input.peek.kind = .keyword .functionKw ∨
      (input.peek.kind = .keyword .asyncKw ∧ input.advance.peek.kind = .keyword .functionKw) := by
  obtain ⟨previous, tokens⟩ := input
  cases tokens with
  | nil => cases h
  | cons token rest =>
      simp only [startsFunction, Bool.or_eq_true, Bool.and_eq_true, decide_eq_true_eq] at h
      refine h.imp id fun ⟨hasync, hrest⟩ => ⟨hasync, ?_⟩
      cases rest with
      | nil => cases hrest
      | cons next others =>
          have hend : token.kind ≠ .endOfInput := by simp [hasync]
          have hadvance : Input.advance ⟨previous, token :: next :: others⟩ =
              ⟨token.loc, next :: others⟩ := if_neg hend
          have hnext : next.kind = .keyword .functionKw := by simpa using hrest
          rw [hadvance]
          exact hnext

/-- Where the words that start a function are taken if they are next. -/
theorem startsFunction_yields {before behind : Token → Prop} {β : Type} {next : β → Prop}
    {f : Bool → Reader β} {other : Reader β}
    (hf : ∀ isAsync, told → Yields Named Sited True (Whole Named) behind next (f isAsync))
    (hother : Yields Named Sited told before behind next other) :
    Yields Named Sited told before behind next (do
      if startsFunction (← upcoming) then
        let isAsync ← acceptWord .asyncKw
        Reader.skip
        f isAsync
      else other) := by
  have hskip (isAsync : Bool) : Yields Named Sited told (·.kind = .keyword .functionKw) behind next
      (Reader.skip >>= fun _ => f isAsync) := by
    refine (Yields.skip ?_).bind fun _ htold => hf isAsync htold
    intro token htoken
    rw [htoken]
    rfl
  intro input b rest hinput htold htoken h
  change (if startsFunction input.tokens then
    (accept (.keyword .asyncKw) >>= fun isAsync => Reader.skip >>= fun _ => f isAsync)
    else other) input = .ok (b, rest) at h
  split at h
  · rename_i hstarts
    change (accept (.keyword .asyncKw) input >>= fun read =>
      (Reader.skip >>= fun _ => f read.1) read.2) = .ok (b, rest) at h
    unfold accept at h
    rcases peek_of_startsFunction hstarts with hpeek | ⟨hasync, hpeek⟩
    · rw [if_neg (by simp [hpeek])] at h
      exact hskip false input b rest hinput htold hpeek h
    · rw [if_pos hasync] at h
      have htaken : told := htold (by simp [hasync])
      exact hskip true input.advance b rest hinput.advance (fun _ => htaken) hpeek h
  · exact hother input b rest hinput htold htoken h

end Parts

/-! ## The functions of the parser -/

/-- With this bound, what the functions of the parser read is plain if what they are given is.
A name may be next where an expression, a declaration or a statement begins; behind an
expression there may be anything, behind a statement a name may be next again. An expression
takes a token at least. -/
structure ReadsPlain (Named : String → Prop) (Sited : Location → Prop) (left : Nat) : Prop where
  expression : ∀ told, (expression left).Yields Named Sited told (Whole Named) Any
    fun e => told ∧ PlainExpr Named Sited e
  arrowFunction : ∀ told, (arrowFunction left).Yields Named Sited told (Whole Named) Any
    fun e => told ∧ PlainExpr Named Sited e
  conditional : ∀ told, (conditional left).Yields Named Sited told (Whole Named) Any
    fun e => told ∧ PlainExpr Named Sited e
  binary : ∀ told levels, (binary left levels).Yields Named Sited told (Whole Named) Any
    fun e => told ∧ PlainExpr Named Sited e
  binaryRest : ∀ level tighter first, PlainExpr Named Sited first →
    (binaryRest left level tighter first).Yields Named Sited True Any Any
      fun e => PlainExpr Named Sited e
  power : ∀ told, (power left).Yields Named Sited told (Whole Named) Any
    fun e => told ∧ PlainExpr Named Sited e
  unary : ∀ told, (unary left).Yields Named Sited told (Whole Named) Any
    fun e => told ∧ PlainExpr Named Sited e
  trailers : ∀ e, PlainExpr Named Sited e → (trailers left e).Yields Named Sited True Any Any
    fun e => PlainExpr Named Sited e
  construction : ∀ told,
    (construction left).Yields Named Sited told (·.kind = .keyword .newKw) Any
      fun e => told ∧ PlainExpr Named Sited e
  constructorPath : ∀ e, PlainExpr Named Sited e →
    (constructorPath left e).Yields Named Sited True Any Any fun e => PlainExpr Named Sited e
  elements : ∀ close, (elements left close).Yields Named Sited True (Whole Named) Any
    fun es => PlainElements Named Sited es
  fields : (fields left).Yields Named Sited True (Whole Named) Any
    fun fs => PlainFields Named Sited fs
  primary : ∀ told, (primary left).Yields Named Sited told (Whole Named) Any
    fun e => told ∧ PlainExpr Named Sited e
  functionRest : ∀ x isAsync, (functionRest left x isAsync).Yields Named Sited True (Whole Named)
    (Whole Named) fun f => f.name = x ∧ PlainFunction Named Sited f
  declarators : ∀ kind, (declarators left kind).Yields Named Sited True (Whole Named) Any
    fun ds => PlainDeclarators Named Sited ds
  statements : (statements left).Yields Named Sited True (Whole Named) (Whole Named)
    fun stmts => PlainStmts Named Sited stmts
  body : (body left).Yields Named Sited True (Whole Named) (Whole Named)
    fun stmts => PlainStmts Named Sited stmts
  forLoop : ∀ l, Sited l → (forLoop left l).Yields Named Sited True (Whole Named) (Whole Named)
    fun stmt => PlainStmt Named Sited stmt
  forRest : ∀ l start, Sited l → (∀ first, start = some first → PlainStart Named Sited first) →
    (forRest left l start).Yields Named Sited True Any (Whole Named)
      fun stmt => PlainStmt Named Sited stmt
  statement : (statement left).Yields Named Sited True (Whole Named) (Whole Named)
    fun stmt => PlainStmt Named Sited stmt

open Reader

namespace ReadsPlain

variable {Named : String → Prop} {Sited : Location → Prop} {left : Nat}
  (h : ReadsPlain Named Sited left)
include h

theorem expression_succ (told : Prop) :
    (Syntax.expression (left + 1)).Yields Named Sited told (Whole Named) Any
      fun e => told ∧ PlainExpr Named Sited e := by
  unfold Syntax.expression
  refine Yields.look _ fun tokens => ?_
  split
  · exact h.arrowFunction told
  · refine (h.conditional told).bind fun e ⟨htold, he⟩ => Yields.here fun l => ?_
    refine Yields.taking rfl (fun ⟨_, hl⟩ => ?_) ?_
    · split
      · exact Yields.failAt _ _
      · rename_i target htarget
        refine (h.expression True).bind fun value ⟨_, hvalue⟩ => Yields.pure ?_ fun _ h => h
        exact ⟨htold, ConfinedAt.node_iff.mpr
          ⟨hl, ConfinedAt.append_iff.mpr ⟨target?_plain htarget he, hvalue⟩⟩⟩
    · refine acceptCompound_takes.yields (by decide) (Yields.pure ⟨htold, he⟩ fun _ h => h)
        fun op ⟨_, hl⟩ => ?_
      dsimp only
      split
      · exact Yields.failAt _ _
      · rename_i place hplace
        refine (h.expression True).bind fun value ⟨_, hvalue⟩ => Yields.pure ?_ fun _ h => h
        exact ⟨htold, ConfinedAt.node_iff.mpr
          ⟨hl, ConfinedAt.append_iff.mpr ⟨place?_plain hplace he, hvalue⟩⟩⟩

theorem arrowFunction_succ (told : Prop) :
    (Syntax.arrowFunction (left + 1)).Yields Named Sited told (Whole Named) Any
      fun e => told ∧ PlainExpr Named Sited e := by
  unfold Syntax.arrowFunction
  have hparams (told' : Prop) : Yields Named Sited told' (Whole Named) (Whole Named)
      (fun params => told' ∧ ∀ x ∈ params, Named x) (do
        if ← acceptSymbol .leftParen then
          let params ← parameters
          expectSymbol .rightParen "after arrow parameters"
          return params
        else return [← Reader.name]) := by
    refine Yields.taking rfl (fun htold => ?_) ?_
    · refine parameters_yields.bind fun params hparams => ?_
      exact Yields.expecting rfl _ (Yields.pure ⟨htold, hparams⟩ fun _ h => h)
    · refine Yields.name.bind fun x ⟨htold, hx⟩ => Yields.pure ⟨htold, ?_⟩ fun _ h => h
      exact List.forall_mem_cons.mpr ⟨hx, by simp⟩
  refine Yields.here fun l => Yields.accept rfl fun isAsync => ?_
  refine (hparams _).bind fun params ⟨⟨htold, hl⟩, hparams⟩ => Yields.expecting rfl _ ?_
  refine Yields.here fun opening => Yields.taking rfl (fun _ => ?_) ?_
  · refine h.statements.bind fun body hbody => Yields.look _ fun closing => ?_
    refine Yields.expecting rfl _ (Yields.pure ⟨htold, ?_⟩ fun _ _ => trivial)
    exact ConfinedAt.node_iff.mpr ⟨hl, ConfinedAt.binding_iff.mpr ⟨hparams, hbody⟩⟩
  · refine (h.expression _).bind fun value ⟨⟨_, hopening⟩, hvalue⟩ =>
      Yields.pure ⟨htold, ?_⟩ fun _ h => h
    have hreturn : PlainStmt Named Sited (.return (some value) opening) :=
      ConfinedAt.node_iff.mpr ⟨hopening, hvalue⟩
    exact ConfinedAt.node_iff.mpr ⟨hl, ConfinedAt.binding_iff.mpr
      ⟨hparams, ConfinedAt.append_iff.mpr ⟨hreturn, ConfinedAt.nil⟩⟩⟩

theorem conditional_succ (told : Prop) :
    (Syntax.conditional (left + 1)).Yields Named Sited told (Whole Named) Any
      fun e => told ∧ PlainExpr Named Sited e := by
  unfold Syntax.conditional
  refine (h.binary told _).bind fun condition ⟨htold, hcondition⟩ => ?_
  refine Yields.here fun l => Yields.taking rfl (fun ⟨_, hl⟩ => ?_) ?_
  · refine (h.expression True).bind fun whenTrue ⟨_, htrue⟩ => Yields.expecting rfl _ ?_
    refine (h.expression True).bind fun whenFalse ⟨_, hfalse⟩ => Yields.pure ?_ fun _ h => h
    exact ⟨htold, ConfinedAt.node_iff.mpr ⟨hl, ConfinedAt.append_iff.mpr
      ⟨ConfinedAt.append_iff.mpr ⟨hcondition, htrue⟩, hfalse⟩⟩⟩
  · exact Yields.pure ⟨htold, hcondition⟩ fun _ h => h

theorem binary_succ (told : Prop) (levels : List (List OperatorOf)) :
    (Syntax.binary (left + 1) levels).Yields Named Sited told (Whole Named) Any
      fun e => told ∧ PlainExpr Named Sited e := by
  unfold Syntax.binary
  cases levels with
  | nil => exact h.power told
  | cons level tighter =>
      refine (h.binary told tighter).bind fun first ⟨htold, hfirst⟩ => ?_
      exact (h.binaryRest level tighter first hfirst).imp fun e he => ⟨htold, he⟩

theorem binaryRest_succ (level : List OperatorOf) (tighter : List (List OperatorOf))
    (first : Expr) (hfirst : PlainExpr Named Sited first) :
    (Syntax.binaryRest (left + 1) level tighter first).Yields Named Sited True Any Any
      fun e => PlainExpr Named Sited e := by
  unfold Syntax.binaryRest
  refine Yields.here fun l => ?_
  refine (acceptOperator_takes level).yields (isMark_levelKinds level) ?_ fun op ⟨_, hl⟩ => ?_
  · exact Yields.pure hfirst fun _ h => h
  · refine (h.binary True tighter).bind fun second ⟨_, hsecond⟩ => ?_
    refine h.binaryRest level tighter _ (ConfinedAt.node_iff.mpr ⟨hl, ?_⟩)
    exact ConfinedAt.append_iff.mpr ⟨hfirst, hsecond⟩

theorem power_succ (told : Prop) :
    (Syntax.power (left + 1)).Yields Named Sited told (Whole Named) Any
      fun e => told ∧ PlainExpr Named Sited e := by
  unfold Syntax.power
  refine (h.unary told).bind fun base ⟨htold, hbase⟩ => ?_
  refine Yields.here fun l => Yields.taking rfl (fun ⟨_, hl⟩ => ?_) ?_
  · refine (h.power True).bind fun exponent ⟨_, hexponent⟩ => Yields.pure ⟨htold, ?_⟩ fun _ h => h
    exact ConfinedAt.node_iff.mpr ⟨hl, ConfinedAt.append_iff.mpr ⟨hbase, hexponent⟩⟩
  · exact Yields.pure ⟨htold, hbase⟩ fun _ h => h

theorem unary_succ (told : Prop) :
    (Syntax.unary (left + 1)).Yields Named Sited told (Whole Named) Any
      fun e => told ∧ PlainExpr Named Sited e := by
  unfold Syntax.unary
  have hfirst (told' : Prop) : Yields Named Sited told' (Whole Named) Any
      (fun e => told' ∧ PlainExpr Named Sited e) (do
        if ← sees (.keyword .newKw) then Syntax.construction left
        else Syntax.primary left) := by
    intro input e rest hinput htold htoken hread
    change (if decide (input.peek.kind = .keyword .newKw) = true then Syntax.construction left
      else Syntax.primary left) input = .ok (e, rest) at hread
    split at hread
    · rename_i hnew
      exact h.construction told' input e rest hinput htold (of_decide_eq_true hnew) hread
    · exact h.primary told' input e rest hinput htold htoken hread
  refine Yields.here fun l => Yields.taking rfl (fun ⟨htold, hl⟩ => ?_) ?_
  · refine (h.unary True).bind fun operand ⟨_, hoperand⟩ => Yields.pure ?_ fun _ h => h
    exact ⟨htold, ConfinedAt.node_iff.mpr ⟨hl, hoperand⟩⟩
  · refine acceptFront_takes.yields (by decide) ?_ fun front ⟨htold, hl⟩ => ?_
    · refine (hfirst _).bind fun first ⟨⟨htold, _⟩, hfirst⟩ => ?_
      exact (h.trailers first hfirst).imp fun e he => ⟨htold, he⟩
    · cases front with
      | pure op =>
          refine (h.unary True).bind fun operand ⟨_, hoperand⟩ => Yields.pure ?_ fun _ h => h
          exact ⟨htold, ConfinedAt.node_iff.mpr ⟨hl, hoperand⟩⟩
      | update op =>
          refine (h.unary True).bind fun operand ⟨_, hoperand⟩ => ?_
          split
          · exact Yields.failAt _ _
          · rename_i place hplace
            refine Yields.pure ⟨htold, ?_⟩ fun _ h => h
            exact ConfinedAt.node_iff.mpr ⟨hl, place?_plain hplace hoperand⟩

theorem trailers_succ (e : Expr) (he : PlainExpr Named Sited e) :
    (Syntax.trailers (left + 1) e).Yields Named Sited True Any Any
      fun e => PlainExpr Named Sited e := by
  unfold Syntax.trailers
  refine Yields.here fun l => acceptBehind_takes.yields (by decide) ?_ fun op ⟨_, hl⟩ => ?_
  · refine Yields.taking rfl (fun ⟨_, hl⟩ => ?_) ?_
    · refine (h.expression True).bind fun key ⟨_, hkey⟩ => Yields.expecting rfl _ ?_
      refine (h.trailers _ ?_).mono (fun _ _ => trivial) fun _ h => h
      exact ConfinedAt.node_iff.mpr ⟨hl, ConfinedAt.append_iff.mpr ⟨he, hkey⟩⟩
    · refine Yields.taking rfl (fun ⟨_, hl⟩ => ?_) ?_
      · refine Yields.name.bind fun x _ => ?_
        exact (h.trailers (.member e x l) (ConfinedAt.node_iff.mpr ⟨hl, he⟩)).mono
          (fun _ _ => trivial) fun _ h => h
      · refine Yields.taking rfl (fun ⟨_, hl⟩ => ?_) ?_
        · refine (h.elements _).bind fun args hargs => Yields.expecting rfl _ ?_
          refine (h.trailers _ ?_).mono (fun _ _ => trivial) fun _ h => h
          exact ConfinedAt.node_iff.mpr ⟨hl, ConfinedAt.append_iff.mpr ⟨he, hargs⟩⟩
        · exact Yields.pure he fun _ h => h
  · dsimp only
    split
    · exact Yields.failAt _ _
    · rename_i place hplace
      refine (h.trailers (.update op place l) ?_).mono (fun _ _ => trivial) fun _ h => h
      exact ConfinedAt.node_iff.mpr ⟨hl, place?_plain hplace he⟩

theorem construction_succ (told : Prop) :
    (Syntax.construction (left + 1)).Yields Named Sited told (·.kind = .keyword .newKw) Any
      fun e => told ∧ PlainExpr Named Sited e := by
  unfold Syntax.construction
  have hnew (token : Token) (htoken : token.kind = .keyword .newKw) :
      token.kind.isMark = true := by
    rw [htoken]
    rfl
  refine Yields.here fun l => (Yields.skip hnew).bind fun _ ⟨htold, hl⟩ => ?_
  refine (h.primary True).bind fun first ⟨_, hfirst⟩ => ?_
  refine (h.constructorPath first hfirst).bind fun callee hcallee => ?_
  refine Yields.taking rfl (fun _ => ?_) ?_
  · refine (h.elements _).bind fun args hargs => Yields.expecting rfl _ ?_
    refine Yields.pure ⟨htold, ?_⟩ fun _ _ => trivial
    exact ConfinedAt.node_iff.mpr ⟨hl, ConfinedAt.append_iff.mpr ⟨hcallee, hargs⟩⟩
  · refine Yields.pure ⟨htold, ?_⟩ fun _ h => h
    exact ConfinedAt.node_iff.mpr ⟨hl, ConfinedAt.append_iff.mpr ⟨hcallee, ConfinedAt.nil⟩⟩

theorem constructorPath_succ (e : Expr) (he : PlainExpr Named Sited e) :
    (Syntax.constructorPath (left + 1) e).Yields Named Sited True Any Any
      fun e => PlainExpr Named Sited e := by
  unfold Syntax.constructorPath
  refine Yields.here fun l => Yields.taking rfl (fun ⟨_, hl⟩ => ?_) ?_
  · refine Yields.name.bind fun x _ => ?_
    exact (h.constructorPath (.member e x l) (ConfinedAt.node_iff.mpr ⟨hl, he⟩)).mono
      (fun _ _ => trivial) fun _ h => h
  · exact Yields.pure he fun _ h => h

theorem elements_succ (close : Symbol) :
    (Syntax.elements (left + 1) close).Yields Named Sited True (Whole Named) Any
      fun es => PlainElements Named Sited es := by
  unfold Syntax.elements
  refine Yields.look _ fun isClosed => Yields.look _ fun isEnd => ?_
  split
  · exact Yields.pure ConfinedAt.nil fun _ _ => trivial
  · refine Yields.here fun l => ?_
    have helement : Yields Named Sited (True ∧ Sited l) (Whole Named) Any
        (fun element => PlainElements Named Sited [element]) (do
          if ← acceptSymbol .ellipsis then return Element.spread (← Syntax.expression left) l
          else return Element.item (← Syntax.expression left)) := by
      refine Yields.taking rfl (fun ⟨_, hl⟩ => ?_) ?_
      · refine (h.expression True).bind fun e ⟨_, he⟩ => Yields.pure ?_ fun _ h => h
        exact ConfinedAt.node_iff.mpr ⟨hl, ConfinedAt.append_iff.mpr ⟨he, ConfinedAt.nil⟩⟩
      · refine (h.expression _).bind fun e ⟨_, he⟩ => Yields.pure ?_ fun _ h => h
        exact ConfinedAt.append_iff.mpr ⟨he, ConfinedAt.nil⟩
    refine helement.bind fun element helement => Yields.taking rfl (fun _ => ?_) ?_
    · refine (h.elements close).bind fun rest hrest => Yields.pure ?_ fun _ h => h
      exact elements_plain_cons helement hrest
    · exact Yields.pure helement fun _ h => h

theorem fields_succ : (Syntax.fields (left + 1)).Yields Named Sited True (Whole Named) Any
    fun fs => PlainFields Named Sited fs := by
  unfold Syntax.fields
  refine Yields.look _ fun isClosed => Yields.look _ fun isEnd => ?_
  split
  · exact Yields.pure ConfinedAt.nil fun _ _ => trivial
  · refine Yields.here fun l => fieldName_yields.bind fun key ⟨_, hl⟩ => ?_
    have hvalue : Yields Named Sited True Any Any (fun e => PlainExpr Named Sited e) (do
        if ← acceptSymbol .colon then Syntax.expression left
        else return Expr.variable key l) := by
      refine Yields.taking rfl (fun _ => ?_) ?_
      · exact (h.expression True).imp fun e he => he.2
      · exact Yields.pure (plain_leaf hl) fun _ h => h
    refine hvalue.bind fun value hvalue => Yields.taking rfl (fun _ => ?_) ?_
    · refine h.fields.bind fun rest hrest => Yields.pure ?_ fun _ h => h
      exact ConfinedAt.append_iff.mpr ⟨hvalue, hrest⟩
    · refine Yields.pure ?_ fun _ h => h
      exact ConfinedAt.append_iff.mpr ⟨hvalue, ConfinedAt.nil⟩

theorem primary_succ (told : Prop) :
    (Syntax.primary (left + 1)).Yields Named Sited told (Whole Named) Any
      fun e => told ∧ PlainExpr Named Sited e := by
  unfold Syntax.primary
  refine Yields.here fun l => acceptAtom_yields ?_ fun e ⟨htold, _⟩ he =>
    Yields.pure ⟨htold, he⟩ fun _ h => h
  refine startsFunction_yields (fun isAsync ⟨htold, hl⟩ => ?_) ?_
  · refine Yields.acceptName.bind fun x _ => ?_
    refine (h.functionRest x isAsync).bind fun f ⟨_, hf⟩ => Yields.pure ?_ fun _ _ => trivial
    exact ⟨htold, ConfinedAt.node_iff.mpr ⟨hl, hf⟩⟩
  · refine Yields.taking rfl (fun ⟨htold, hl⟩ => ?_) ?_
    · refine (h.elements _).bind fun items hitems => Yields.expecting rfl _ ?_
      exact Yields.pure ⟨htold, ConfinedAt.node_iff.mpr ⟨hl, hitems⟩⟩ fun _ _ => trivial
    · refine Yields.taking rfl (fun ⟨htold, hl⟩ => ?_) ?_
      · refine h.fields.bind fun items hitems => Yields.expecting rfl _ ?_
        exact Yields.pure ⟨htold, ConfinedAt.node_iff.mpr ⟨hl, hitems⟩⟩ fun _ _ => trivial
      · refine Yields.taking rfl (fun ⟨htold, _⟩ => ?_) ?_
        · refine (h.expression True).bind fun e ⟨_, he⟩ => Yields.expecting rfl _ ?_
          exact Yields.pure ⟨htold, he⟩ fun _ _ => trivial
        · exact Yields.look _ fun found => Yields.failAt _ _

theorem functionRest_succ (x : Option String) (isAsync : Bool) :
    (Syntax.functionRest (left + 1) x isAsync).Yields Named Sited True (Whole Named) (Whole Named)
      fun f => f.name = x ∧ PlainFunction Named Sited f := by
  unfold Syntax.functionRest
  refine Yields.expecting rfl _ (parameters_yields.bind fun params hparams => ?_)
  refine Yields.expecting rfl _ (Yields.look _ fun opening => Yields.expecting rfl _ ?_)
  refine h.statements.bind fun body hbody => Yields.look _ fun closing => ?_
  refine Yields.expecting rfl _ (Yields.pure ⟨rfl, ?_⟩ fun _ h => h)
  exact ConfinedAt.binding_iff.mpr ⟨hparams, hbody⟩

theorem declarators_succ (kind : DeclKind) :
    (Syntax.declarators (left + 1) kind).Yields Named Sited True (Whole Named) Any
      fun ds => PlainDeclarators Named Sited ds := by
  unfold Syntax.declarators
  refine binder_yields.bind fun target htarget => ?_
  have hvalue : Yields Named Sited True (Whole Named) Any
      (fun value => PlainOptional Named Sited value) (do
        if ← acceptSymbol .assign then return some (← Syntax.expression left)
        else return none) := by
    refine Yields.taking rfl (fun _ => ?_) ?_
    · exact (h.expression True).bind fun e he => Yields.pure he.2 fun _ h => h
    · exact Yields.pure ConfinedAt.nil fun _ _ => trivial
  refine hvalue.bind fun value hvalue => ?_
  have hrest : Yields Named Sited True Any Any
      (fun ds => PlainDeclarators Named Sited ds) (do
        if ← acceptSymbol .comma then
          return .mk target value :: (← Syntax.declarators left kind)
        else return [.mk target value]) := by
    refine Yields.taking rfl (fun _ => ?_) ?_
    · refine (h.declarators kind).bind fun rest hrest => Yields.pure ?_ fun _ h => h
      exact declarators_plain_cons htarget hvalue hrest
    · exact Yields.pure (declarators_plain_cons htarget hvalue ConfinedAt.nil) fun _ h => h
  refine iteInduction (motive := Yields Named Sited True Any Any _) (fun _ => ?_) fun _ => hrest
  refine Yields.look _ fun l => ?_
  have hfails : Yields Named Sited True Any Any (fun _ => True)
      (Reader.failAt l .missingInitializer : Reader PUnit) := Yields.failAt _ _
  exact hfails.bind fun _ _ => hrest

/-! ## Statements -/

theorem statements_succ :
    (Syntax.statements (left + 1)).Yields Named Sited True (Whole Named) (Whole Named)
      fun stmts => PlainStmts Named Sited stmts := by
  unfold Syntax.statements
  refine Yields.look _ fun isClosed => Yields.look _ fun isEnd => ?_
  split
  · exact Yields.pure ConfinedAt.nil fun _ h => h
  · refine h.statement.bind fun first hfirst => h.statements.bind fun rest hrest => ?_
    exact Yields.pure (ConfinedAt.append_iff.mpr ⟨hfirst, hrest⟩) fun _ h => h

theorem body_succ :
    (Syntax.body (left + 1)).Yields Named Sited True (Whole Named) (Whole Named)
      fun stmts => PlainStmts Named Sited stmts := by
  unfold Syntax.body
  refine Yields.taking rfl (fun _ => ?_) ?_
  · refine h.statements.bind fun list hlist => ?_
    exact Yields.expecting rfl _ (Yields.pure hlist fun _ h => h)
  · refine h.statement.bind fun stmt hstmt => Yields.pure ?_ fun _ h => h
    exact ConfinedAt.append_iff.mpr ⟨hstmt, ConfinedAt.nil⟩

theorem forLoop_succ (l : Location) (hl : Sited l) :
    (Syntax.forLoop (left + 1) l).Yields Named Sited True (Whole Named) (Whole Named)
      fun stmt => PlainStmt Named Sited stmt := by
  unfold Syntax.forLoop
  refine Yields.expecting rfl _ (Yields.here fun startLoc => ?_)
  refine acceptDeclKind_takes.yields (by decide) ?_ fun kind ⟨_, hstartLoc⟩ => ?_
  · refine Yields.choice _ ?_ ?_
    · refine (h.forRest l none hl ?_).weaken.mono (fun _ _ => trivial) fun _ h => h
      rintro _ ⟨⟩
    · refine (h.expression _).bind fun e ⟨⟨_, hstartLoc⟩, he⟩ => h.forRest l _ hl ?_
      rintro _ ⟨⟩
      exact ConfinedAt.node_iff.mpr ⟨hstartLoc, he⟩
  · refine Yields.remembering fun saved hsaved hbefore => ?_
    refine binder_yields.bind fun target htarget => Yields.taking rfl (fun _ => ?_) ?_
    · refine (h.expression True).bind fun iterable ⟨_, hiterable⟩ => Yields.expecting rfl _ ?_
      refine h.body.bind fun body hbody => Yields.pure ?_ fun _ h => h
      exact ConfinedAt.node_iff.mpr ⟨hl, ConfinedAt.binding_iff.mpr
        ⟨htarget, ConfinedAt.append_iff.mpr ⟨hiterable, hbody⟩⟩⟩
    · refine Yields.goingBack hsaved hbefore ?_
      refine (h.declarators _).bind fun list hlist => h.forRest l _ hl ?_
      rintro _ ⟨⟩
      exact ConfinedAt.node_iff.mpr ⟨hstartLoc, hlist⟩

theorem forRest_succ (l : Location) (start : Option ForStart) (hl : Sited l)
    (hstart : ∀ first, start = some first → PlainStart Named Sited first) :
    (Syntax.forRest (left + 1) l start).Yields Named Sited True Any (Whole Named)
      fun stmt => PlainStmt Named Sited stmt := by
  unfold Syntax.forRest
  have hclause (close : Symbol) : Yields Named Sited True (Whole Named) Any
      (fun clause => PlainOptional Named Sited clause) (do
        if ← seesSymbol close then return none
        else return some (← Syntax.expression left)) := by
    refine Yields.choice _ ?_ ?_
    · exact Yields.pure ConfinedAt.nil fun _ _ => trivial
    · exact (h.expression True).bind fun e he => Yields.pure he.2 fun _ h => h
  refine Yields.expecting rfl _ ((hclause _).bind fun condition hcondition => ?_)
  refine Yields.expecting rfl _ ((hclause _).bind fun step hstep => Yields.expecting rfl _ ?_)
  refine h.body.bind fun body hbody => Yields.pure ?_ fun _ h => h
  cases start with
  | none =>
      have hclauses := ConfinedAt.append_iff.mpr ⟨hcondition, hstep⟩
      exact ConfinedAt.node_iff.mpr ⟨hl, ConfinedAt.append_iff.mpr ⟨hclauses, hbody⟩⟩
  | some first =>
      have hfirst := ConfinedAt.append_iff.mpr ⟨hstart first rfl, hcondition⟩
      have hclauses := ConfinedAt.append_iff.mpr ⟨hfirst, hstep⟩
      exact ConfinedAt.node_iff.mpr ⟨hl, ConfinedAt.append_iff.mpr ⟨hclauses, hbody⟩⟩

theorem statement_succ :
    (Syntax.statement (left + 1)).Yields Named Sited True (Whole Named) (Whole Named)
      fun stmt => PlainStmt Named Sited stmt := by
  unfold Syntax.statement
  refine Yields.here fun l => Yields.taking rfl (fun ⟨_, hl⟩ => ?_) ?_
  · exact Yields.pure (plain_leaf hl) fun _ h => h
  refine startsFunction_yields (fun isAsync ⟨_, hl⟩ => ?_) ?_
  · refine Yields.name.bind fun x ⟨_, hx⟩ => ?_
    refine (h.functionRest (some x) isAsync).bind fun f ⟨hname, hf⟩ => ?_
    have hnames : ∀ name ∈ f.name.toList, Named name := by
      rw [hname]
      simpa using hx
    refine Yields.pure ?_ fun _ h => h
    exact ConfinedAt.node_iff.mpr ⟨hl, ConfinedAt.binding_iff.mpr ⟨hnames, hf⟩⟩
  refine acceptDeclKind_takes.yields (by decide) ?_ fun kind ⟨_, hl⟩ => ?_
  on_goal 2 =>
    refine (h.declarators _).bind fun list hlist => Yields.ending _ ?_
    exact Yields.pure (ConfinedAt.node_iff.mpr ⟨hl, hlist⟩) fun _ h => h
  refine Yields.taking rfl (fun ⟨_, hl⟩ => ?_) ?_
  · refine Yields.look _ fun next => ?_
    have hvalue (isMissing : Bool) : Yields Named Sited True (Whole Named) Any
        (fun value => PlainOptional Named Sited value) (do
          if isMissing then return none else return some (← Syntax.expression left)) := by
      split
      · exact Yields.pure ConfinedAt.nil fun _ _ => trivial
      · exact (h.expression True).bind fun e he => Yields.pure he.2 fun _ h => h
    refine (hvalue _).bind fun value hvalue => Yields.ending _ ?_
    exact Yields.pure (ConfinedAt.node_iff.mpr ⟨hl, hvalue⟩) fun _ h => h
  refine Yields.taking rfl (fun ⟨_, hl⟩ => ?_) ?_
  · refine Yields.expecting rfl _ ((h.expression True).bind fun condition ⟨_, hcondition⟩ => ?_)
    refine Yields.expecting rfl _ (h.body.bind fun whenTrue htrue => ?_)
    have hbranch := ConfinedAt.append_iff.mpr ⟨hcondition, htrue⟩
    refine Yields.taking rfl (fun _ => ?_) ?_
    · refine h.body.bind fun whenFalse hfalse => Yields.pure ?_ fun _ h => h
      exact ConfinedAt.node_iff.mpr ⟨hl, ConfinedAt.append_iff.mpr ⟨hbranch, hfalse⟩⟩
    · exact Yields.pure (ConfinedAt.node_iff.mpr ⟨hl, hbranch⟩) fun _ h => h
  refine Yields.taking rfl (fun ⟨_, hl⟩ => ?_) ?_
  · refine Yields.expecting rfl _ ((h.expression True).bind fun condition ⟨_, hcondition⟩ => ?_)
    refine Yields.expecting rfl _ (h.body.bind fun body hbody => Yields.pure ?_ fun _ h => h)
    exact ConfinedAt.node_iff.mpr ⟨hl, ConfinedAt.append_iff.mpr ⟨hcondition, hbody⟩⟩
  refine Yields.taking rfl (fun ⟨_, hl⟩ => ?_) ?_
  · refine h.body.bind fun body hbody => Yields.expecting rfl _ (Yields.expecting rfl _ ?_)
    refine (h.expression True).bind fun condition ⟨_, hcondition⟩ => Yields.expecting rfl _ ?_
    refine Yields.accept rfl fun _ => Yields.pure ?_ fun _ h => h
    exact ConfinedAt.node_iff.mpr ⟨hl, ConfinedAt.append_iff.mpr ⟨hbody, hcondition⟩⟩
  refine Yields.taking rfl (fun ⟨_, hl⟩ => h.forLoop l hl) ?_
  refine Yields.taking rfl (fun ⟨_, hl⟩ => ?_) ?_
  · exact Yields.ending _ (Yields.pure (plain_leaf hl) fun _ h => h)
  refine Yields.taking rfl (fun ⟨_, hl⟩ => ?_) ?_
  · exact Yields.ending _ (Yields.pure (plain_leaf hl) fun _ h => h)
  refine Yields.taking rfl (fun ⟨_, hl⟩ => ?_) ?_
  · refine (h.expression True).bind fun value ⟨_, hvalue⟩ => Yields.ending _ ?_
    exact Yields.pure (ConfinedAt.node_iff.mpr ⟨hl, hvalue⟩) fun _ h => h
  refine Yields.taking rfl (fun ⟨_, hl⟩ => ?_) ?_
  · refine h.statements.bind fun list hlist => Yields.expecting rfl _ ?_
    exact Yields.pure (ConfinedAt.node_iff.mpr ⟨hl, hlist⟩) fun _ h => h
  · refine (h.expression _).bind fun e ⟨⟨_, hl⟩, he⟩ => Yields.ending _ ?_
    exact Yields.pure (ConfinedAt.node_iff.mpr ⟨hl, he⟩) fun _ h => h

end ReadsPlain

/-- What the parser reads is plain, whatever the bound. -/
theorem readsPlain (Named : String → Prop) (Sited : Location → Prop) (left : Nat) :
    ReadsPlain Named Sited left := by
  induction left with
  | zero =>
      constructor
      all_goals
        intros
        exact Yields.look _ fun l => Yields.failAt l _
  | succ left h =>
      exact {
        expression := h.expression_succ
        arrowFunction := h.arrowFunction_succ
        conditional := h.conditional_succ
        binary := h.binary_succ
        binaryRest := h.binaryRest_succ
        power := h.power_succ
        unary := h.unary_succ
        trailers := h.trailers_succ
        construction := h.construction_succ
        constructorPath := h.constructorPath_succ
        elements := h.elements_succ
        fields := h.fields_succ
        primary := h.primary_succ
        functionRest := h.functionRest_succ
        declarators := h.declarators_succ
        statements := h.statements_succ
        body := h.body_succ
        forLoop := h.forLoop_succ
        forRest := h.forRest_succ
        statement := h.statement_succ }

theorem programStatements_yields (Named : String → Prop) (Sited : Location → Prop)
    (depth left : Nat) :
    (programStatements depth left).Yields Named Sited True (Whole Named) Any
      fun program => PlainStmts Named Sited program := by
  induction left with
  | zero => exact Yields.look _ fun l => Yields.failAt l _
  | succ left ih =>
      unfold programStatements
      refine Yields.choice _ (Yields.pure ConfinedAt.nil fun _ _ => trivial) ?_
      refine (readsPlain Named Sited depth).statement.bind fun first hfirst => ?_
      refine ih.bind fun rest hrest => Yields.pure ?_ fun _ h => h
      exact ConfinedAt.append_iff.mpr ⟨hfirst, hrest⟩

/-- A token of the list starts at the place, and it is not the end of the text. -/
def StartsToken (tokens : List Token) (l : Location) : Prop :=
  ∃ token ∈ tokens, token.kind ≠ .endOfInput ∧ token.loc = l

/-- A parsed program has no captures, binds only names that its text has, and its nodes are at
places where tokens of the text start. -/
theorem plain_parse {source : String} {program : Program} (h : parse source = .ok program) :
    ∃ tokens, tokenize source = .ok tokens ∧
      PlainStmts (Written source) (StartsToken tokens) program := by
  unfold parse at h
  cases htokens : tokenize source with
  | error e =>
      rw [htokens] at h
      cases h
  | ok tokens =>
      rw [htokens] at h
      refine ⟨tokens, rfl, ?_⟩
      have hchain (l : Location) := isChain_tokenize htokens ⟨.endOfInput, l⟩
      have hsited : ∀ token ∈ tokens, token.kind ≠ .endOfInput → StartsToken tokens token.loc :=
        fun token htoken hend => ⟨token, htoken, hend, rfl⟩
      refine (programStatements_yields (Written source) (StartsToken tokens) _ _).of_map
        ⟨⟨_, rfl, hchain _⟩, hsited⟩ ?_ h
      cases tokens with
      | nil => rintro x ⟨⟩
      | cons first rest =>
          have hfirst := (List.isChain_cons_cons.mp (hchain first.loc)).1
          intro x hx
          exact hfirst x hx (by rintro ⟨⟩)

/-- A parsed program has no captures. -/
theorem captures_parse {source : String} {program : Program} (h : parse source = .ok program) :
    captures program = [] := by
  obtain ⟨tokens, -, hplain⟩ := plain_parse h
  exact List.eq_nil_iff_forall_not_mem.mpr hplain.lines

/-- A parsed program binds only names that its text has. -/
theorem written_parse {source : String} {program : Program} (h : parse source = .ok program) :
    ∀ x ∈ boundNames program, Written source x := by
  obtain ⟨tokens, -, hplain⟩ := plain_parse h
  exact hplain.names

/-- The nodes of a parsed program are at places where tokens of its text start. -/
theorem sited_parse {source : String} {program : Program} {tokens : List Token}
    (h : parse source = .ok program) (htokens : tokenize source = .ok tokens) :
    ∀ l ∈ locs program, StartsToken tokens l := by
  obtain ⟨tokens', htokens', hplain⟩ := plain_parse h
  cases htokens.symm.trans htokens'
  exact hplain.sited

end StepTrace.Syntax
