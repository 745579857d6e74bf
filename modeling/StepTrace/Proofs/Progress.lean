import StepTrace.Proofs.Readers

/-!
# Progress

Between two steps of the descent that take no token the parser only goes to a tighter level, and
there are fewer levels than `stepsPerToken`. So a bound that allows so many steps for each token is
never reached, and what is read does not depend on it. Each function of the parser has a place in
the order of descent, its rank; it needs a bound of its rank and `stepsPerToken` more for each
token (`Reader.Progresses`).

* `Input.Consumed`: tokens that were taken, none of which is the end of input.
* `Reader.Progresses.bind`: each token that is taken pays for the steps behind it.
* `Progress`: the rank of each function, and how many tokens it takes at least.
-/

namespace StepTrace.Syntax

open Reader

variable {input rest last : Input} {n k : Nat}

/-! ## Tokens that were taken -/

/-- So many tokens at least have been taken, and none of them is the end of input. -/
def Input.Consumed (least : Nat) (input rest : Input) : Prop :=
  ∃ taken, input.tokens = taken ++ rest.tokens ∧ least ≤ taken.length ∧
    ∀ token ∈ taken, token.kind ≠ .endOfInput

namespace Input.Consumed

theorem refl (input : Input) : input.Consumed 0 input :=
  ⟨[], rfl, Nat.le_refl 0, List.forall_mem_nil _⟩

theorem trans (h : input.Consumed n rest) (h' : rest.Consumed k last) :
    input.Consumed (n + k) last := by
  obtain ⟨taken, htokens, hleast, hkinds⟩ := h
  obtain ⟨taken', htokens', hleast', hkinds'⟩ := h'
  refine ⟨taken ++ taken', ?_, ?_, List.forall_mem_append.mpr ⟨hkinds, hkinds'⟩⟩
  · rw [htokens, htokens', List.append_assoc]
  · rw [List.length_append]
    exact Nat.add_le_add hleast hleast'

theorem mono (h : input.Consumed n rest) (hle : k ≤ n) : input.Consumed k rest := by
  obtain ⟨taken, htokens, hleast, hkinds⟩ := h
  exact ⟨taken, htokens, Nat.le_trans hle hleast, hkinds⟩

theorem length_le (h : input.Consumed n rest) : rest.tokens.length + n ≤ input.tokens.length := by
  obtain ⟨taken, htokens, hleast, -⟩ := h
  rw [htokens, List.length_append, Nat.add_comm]
  exact Nat.add_le_add_right hleast _

/-- A token that is not the end of input is taken. -/
theorem advance (h : input.peek.kind ≠ .endOfInput) : input.Consumed 1 input.advance := by
  obtain ⟨previous, tokens⟩ := input
  cases tokens with
  | nil => exact absurd rfl h
  | cons token others =>
      have hkind : token.kind ≠ .endOfInput := h
      have hadvance : Input.advance ⟨previous, token :: others⟩ = ⟨token.loc, others⟩ :=
        if_neg hkind
      rw [hadvance]
      exact ⟨[token], rfl, Nat.le_refl 1, List.forall_mem_singleton.mpr hkind⟩

/-- The end of input stays. -/
theorem advance_any (input : Input) : input.Consumed 0 input.advance := by
  by_cases h : input.peek.kind = .endOfInput
  · obtain ⟨previous, tokens⟩ := input
    cases tokens with
    | nil => exact refl _
    | cons token others =>
        have hkind : token.kind = .endOfInput := h
        have hadvance : Input.advance ⟨previous, token :: others⟩ = ⟨previous, token :: others⟩ :=
          if_pos hkind
        rw [hadvance]
        exact refl _
  · exact (advance h).mono (Nat.zero_le 1)

end Input.Consumed

/-! ## Readers that make progress -/

/-- From this input the reader takes so many tokens at least wherever it succeeds, and if there is
enough room, it does not fail for lack of it, and with more room it does the same. -/
structure Reader.ProgressesAt {α : Type} (least : Nat) (enough : Prop) (m m' : Reader α)
    (input : Input) : Prop where
  consumed : ∀ a rest, m input = .ok (a, rest) → input.Consumed least rest
  ends : enough → ∀ e, m input = .error e → e.fault ≠ .tooDeep
  stays : enough → m' input = m input

/-- The reader `m` with the bound `left`, and `m'` with a greater one: from every input it takes so
many tokens at least, and the bound is enough if it allows for `cost` steps for each token and for
`rank` ones more. -/
def Reader.Progresses {α : Type} (cost least rank left : Nat) (m m' : Reader α) : Prop :=
  ∀ input, ProgressesAt least (cost * input.tokens.length + rank ≤ left) m m' input

namespace Reader.ProgressesAt

variable {α β : Type} {least : Nat} {enough : Prop} {m m' q q' : Reader α}

/-- Where the reader goes on behind tokens that it has taken. -/
theorem behind (hq : ProgressesAt (least - k) enough q q' rest) (hconsumed : input.Consumed k rest)
    (hm : m input = q rest) (hm' : enough → m' input = q' rest) :
    ProgressesAt least enough m m' input := by
  refine ⟨fun a last h => ?_, fun h e he => hq.ends h e (hm ▸ he), fun h => ?_⟩
  · rw [hm] at h
    exact (hconsumed.trans (hq.consumed a last h)).mono (by omega)
  · rw [hm, hm' h, hq.stays h]

theorem mono {other : Prop} (hm : ProgressesAt least other m m' input) (h : enough → other) :
    ProgressesAt least enough m m' input :=
  ⟨hm.consumed, fun he => hm.ends (h he), fun he => hm.stays (h he)⟩

theorem pure (a : α) : ProgressesAt 0 enough (pure a) (pure a) input := by
  refine ⟨fun b rest h => ?_, fun _ e h => (by cases h), fun _ => rfl⟩
  cases h
  exact .refl input

/-- Where nothing is taken. -/
theorem look {f f' : α → Reader β} (g : Input → α)
    (hf : ProgressesAt least enough (f (g input)) (f' (g input)) input) :
    ProgressesAt least enough ((fun input => .ok (g input, input) : Reader α) >>= f)
      ((fun input => .ok (g input, input) : Reader α) >>= f') input :=
  hf.behind (k := 0) (.refl input) rfl fun _ => rfl

/-- Where the reader fails, nothing is read behind it. -/
theorem of_error {f f' : α → Reader β} {e : SyntaxError} (hm : ProgressesAt k enough m m' input)
    (hread : m input = .error e) : ProgressesAt least enough (m >>= f) (m' >>= f') input := by
  have hfails (r : Reader α) (g : α → Reader β) (hr : r input = .error e) :
      (r >>= g) input = .error e := by
    change (r input >>= fun read => g read.1 read.2) = _
    rw [hr]
    rfl
  refine ⟨fun b last h => ?_, fun h e' he => ?_, fun h => ?_⟩
  · rw [hfails m f hread] at h
    cases h
  · rw [hfails m f hread] at he
    cases he
    exact hm.ends h e hread
  · rw [hfails m f hread, hfails m' f' ((hm.stays h).trans hread)]

theorem bind {f f' : α → Reader β} (hm : ProgressesAt k enough m m' input)
    (hf : ∀ a rest, input.Consumed k rest → ProgressesAt (least - k) enough (f a) (f' a) rest) :
    ProgressesAt least enough (m >>= f) (m' >>= f') input := by
  cases hread : m input with
  | error e => exact hm.of_error hread
  | ok read =>
      obtain ⟨a, rest⟩ := read
      have hconsumed := hm.consumed a rest hread
      exact (hf a rest hconsumed).behind hconsumed (bind_of_ok hread)
        fun h => bind_of_ok ((hm.stays h).trans hread)

end Reader.ProgressesAt

namespace Reader.Progresses

variable {α β : Type} {cost least rank left : Nat} {m m' q q' : Reader α} {f f' : α → Reader β}

/-- A reader without a bound. -/
theorem of_unbounded (hm : ∀ input a rest, m input = .ok (a, rest) → input.Consumed least rest)
    (hends : ∀ input e, m input = .error e → e.fault ≠ .tooDeep) :
    Progresses cost least rank left m m :=
  fun input => ⟨hm input, fun _ => hends input, fun _ => rfl⟩

/-- Where a function fails because its bound is used up, there was not enough of it. -/
theorem of_none (hm : ∀ input a rest, m input ≠ .ok (a, rest)) (hrank : 0 < rank) :
    Progresses cost least rank 0 m m' := by
  have hnever (input : Input) : ¬ cost * input.tokens.length + rank ≤ 0 := by omega
  exact fun input => ⟨fun a rest hread => absurd hread (hm input a rest),
    fun hle => absurd hle (hnever input), fun hle => absurd hle (hnever input)⟩

theorem weaken (h : Progresses cost k rank left m m') (hleast : least ≤ k) :
    Progresses cost least rank left m m' :=
  fun input => ⟨fun a rest hread => ((h input).consumed a rest hread).mono hleast, (h input).ends,
    (h input).stays⟩

theorem raise (h : Progresses cost least n left m m') (hrank : Nat.ble n rank) :
    Progresses cost least rank left m m' := by
  have hle : n ≤ rank := Nat.le_of_ble_eq_true hrank
  exact fun input => (h input).mono fun henough => by omega

/-- A step of the descent. The ranks are numerals as a rule, and their order is computed. -/
theorem call (h : Progresses cost k n left m m') (hleast : Nat.ble least k)
    (hrank : Nat.blt n rank) : Progresses cost least rank (left + 1) m m' := by
  have hlt : n + 1 ≤ rank := Nat.le_of_ble_eq_true hrank
  have hcalled : Progresses cost k rank (left + 1) m m' :=
    fun input => (h input).mono fun henough => by omega
  exact hcalled.weaken (Nat.le_of_ble_eq_true hleast)

/-- What has been taken pays for what comes behind it. -/
theorem behind (hq : Progresses cost (least - k) (rank + cost * k) left q q')
    (hconsumed : input.Consumed k rest) :
    ProgressesAt (least - k) (cost * input.tokens.length + rank ≤ left) q q' rest := by
  have hpays : cost * rest.tokens.length + cost * k ≤ cost * input.tokens.length := by
    rw [← Nat.mul_add]
    exact Nat.mul_le_mul_left cost hconsumed.length_le
  exact ⟨(hq rest).consumed, fun hle => (hq rest).ends (by omega),
    fun hle => (hq rest).stays (by omega)⟩

theorem bind (hm : Progresses cost k rank left m m')
    (hf : ∀ a, Progresses cost (least - k) (rank + cost * k) left (f a) (f' a)) :
    Progresses cost least rank left (m >>= f) (m' >>= f') :=
  fun input => (hm input).bind fun a _ hconsumed => (hf a).behind hconsumed

/-- Behind a step of the descent. -/
theorem after (hm : Progresses cost k n left m m') (hrank : Nat.blt n rank)
    (hf : ∀ a, Progresses cost (least - k) (rank + cost * k) (left + 1) (f a) (f' a)) :
    Progresses cost least rank (left + 1) (m >>= f) (m' >>= f') :=
  (hm.call (Nat.ble_self_eq_true k) hrank).bind hf

/-- Behind a reader that may take nothing. -/
theorem passing (hm : Progresses cost 0 rank left m m')
    (hf : ∀ a, Progresses cost least rank left (f a) (f' a)) :
    Progresses cost least rank left (m >>= f) (m' >>= f') :=
  hm.bind hf

theorem pure (a : α) : Progresses cost 0 rank left (pure a) (pure a) :=
  fun _ => .pure a

theorem failAt (l : Location) {fault : Fault} (hfault : fault ≠ .tooDeep) :
    Progresses cost least rank left (Reader.failAt l fault : Reader α) (Reader.failAt l fault) := by
  refine of_unbounded (fun input a rest h => by cases h) (fun input e h => ?_)
  cases h
  exact hfault

theorem ite {p : Prop} [Decidable p] (hm : Progresses cost least rank left m m')
    (hq : Progresses cost least rank left q q') :
    Progresses cost least rank left (if p then m else q) (if p then m' else q') := by
  split
  · exact hm
  · exact hq

theorem look (g : Input → α) (hf : ∀ a, Progresses cost least rank left (f a) (f' a)) :
    Progresses cost least rank left ((fun input => .ok (g input, input) : Reader α) >>= f)
      ((fun input => .ok (g input, input) : Reader α) >>= f') :=
  fun input => .look g (hf (g input) input)

theorem skip : Progresses cost 0 rank left Reader.skip Reader.skip := by
  refine of_unbounded (fun input a rest h => ?_) (fun input e h => by cases h)
  cases h
  exact .advance_any input

theorem expect {kind : Kind} (hkind : kind ≠ .endOfInput) (what : String) :
    Progresses cost 1 rank left (Reader.expect kind what) (Reader.expect kind what) := by
  refine of_unbounded (fun input a rest h => ?_) (fun input e h => ?_)
  all_goals
    unfold Reader.expect at h
    split at h
    all_goals cases h
  · rename_i hpeek
    exact .advance (hpeek ▸ hkind)
  · simp

theorem expectSymbol (s : Symbol) (what : String) : Progresses cost 1 rank left
    (Reader.expect (.symbol s) what) (Reader.expect (.symbol s) what) :=
  expect (by simp) what

theorem name : Progresses cost 1 rank left Reader.name Reader.name := by
  refine of_unbounded (fun input a rest h => ?_) (fun input e h => ?_)
  all_goals
    unfold Reader.name at h
    split at h
    all_goals cases h
  · rename_i hpeek
    exact .advance (by simp [hpeek])
  · simp

theorem fieldName : Progresses cost 1 rank left fieldName fieldName := by
  refine of_unbounded (fun input a rest h => ?_) (fun input e h => ?_)
  · unfold Syntax.fieldName at h
    split at h
    case h_4 => cases h
    all_goals
      rename_i hpeek
      cases h
      exact .advance (by simp [hpeek])
  · unfold Syntax.fieldName at h
    split at h
    all_goals cases h
    simp

theorem endStatement (context : String) :
    Progresses cost 0 rank left (Reader.endStatement context) (Reader.endStatement context) := by
  refine of_unbounded (fun input a rest h => ?_) (fun input e h => ?_)
  · unfold Reader.endStatement at h
    split at h
    · cases h
      exact .advance_any input
    · split at h
      · cases h
        exact .refl input
      · cases h
  · unfold Reader.endStatement at h
    split at h
    · cases h
    · split at h
      all_goals cases h
      simp

/-- Where a token is taken if it is next. -/
theorem accepting {kind : Kind} (hkind : kind ≠ .endOfInput)
    (hyes : Progresses cost (least - 1) (rank + cost * 1) left m m')
    (hno : Progresses cost least rank left q q') :
    Progresses cost least rank left (Reader.accept kind >>= fun holds => if holds then m else q)
      (Reader.accept kind >>= fun holds => if holds then m' else q') := by
  intro input
  by_cases hpeek : input.peek.kind = kind
  · have haccept : Reader.accept kind input = .ok (true, input.advance) := if_pos hpeek
    have hconsumed : input.Consumed 1 input.advance := .advance (hpeek ▸ hkind)
    exact (hyes.behind hconsumed).behind hconsumed (bind_of_ok haccept)
      fun _ => bind_of_ok haccept
  · have haccept : Reader.accept kind input = .ok (false, input) := if_neg hpeek
    exact (hno input).behind (k := 0) (.refl input) (bind_of_ok haccept)
      fun _ => bind_of_ok haccept

theorem symbol (s : Symbol) (hyes : Progresses cost (least - 1) (rank + cost * 1) left m m')
    (hno : Progresses cost least rank left q q') :
    Progresses cost least rank left (acceptSymbol s >>= fun holds => if holds then m else q)
      (acceptSymbol s >>= fun holds => if holds then m' else q') :=
  accepting (by simp) hyes hno

theorem word (w : Keyword) (hyes : Progresses cost (least - 1) (rank + cost * 1) left m m')
    (hno : Progresses cost least rank left q q') :
    Progresses cost least rank left (acceptWord w >>= fun holds => if holds then m else q)
      (acceptWord w >>= fun holds => if holds then m' else q') :=
  accepting (by simp) hyes hno

end Reader.Progresses

/-! ## Readers of one token -/

/-- The reader takes the next token, which is not the end of input, or nothing. -/
def Reader.TakesOne {α : Type} (m : Reader (Option α)) : Prop :=
  ∀ input, m input = .ok (none, input) ∨
    ((∃ a, m input = .ok (some a, input.advance)) ∧ input.peek.kind ≠ .endOfInput)

theorem acceptOperator_takesOne (level : List OperatorOf) : (acceptOperator level).TakesOne := by
  intro input
  unfold acceptOperator
  split
  · rename_i s hpeek
    cases level.lookup s with
    | none => exact Or.inl rfl
    | some op => exact Or.inr ⟨⟨op, rfl⟩, by simp [hpeek]⟩
  · exact Or.inl rfl

theorem acceptCompound_takesOne : acceptCompound.TakesOne := by
  intro input
  unfold acceptCompound
  split
  all_goals simp_all

theorem acceptFront_takesOne : acceptFront.TakesOne := by
  intro input
  unfold acceptFront
  split
  all_goals simp_all

theorem acceptBehind_takesOne : acceptBehind.TakesOne := by
  intro input
  unfold acceptBehind
  split
  · split
    all_goals simp_all
  · exact Or.inl rfl

theorem acceptAtom_takesOne : acceptAtom.TakesOne := by
  intro input
  unfold acceptAtom
  dsimp only
  split
  all_goals simp_all

theorem acceptName_takesOne : Reader.acceptName.TakesOne := by
  intro input
  unfold Reader.acceptName
  split
  all_goals simp_all

theorem acceptDeclKind_takesOne : Reader.acceptDeclKind.TakesOne := by
  intro input
  unfold Reader.acceptDeclKind
  split
  all_goals simp_all

namespace Reader.Progresses

variable {α β : Type} {cost least rank left k : Nat}

/-- Where a token of some kinds is taken if it is next. -/
theorem taking {m : Reader (Option α)} {f f' : Option α → Reader β} (hm : m.TakesOne)
    (hnone : Progresses cost least rank left (f none) (f' none))
    (hsome : ∀ a, Progresses cost (least - 1) (rank + cost * 1) left (f (some a)) (f' (some a))) :
    Progresses cost least rank left (m >>= f) (m >>= f') := by
  intro input
  rcases hm input with hread | ⟨⟨a, hread⟩, hpeek⟩
  · exact (hnone input).behind (k := 0) (.refl input) (bind_of_ok hread) fun _ => bind_of_ok hread
  · have hconsumed : input.Consumed 1 input.advance := .advance hpeek
    exact ((hsome a).behind hconsumed).behind hconsumed (bind_of_ok hread) fun _ => bind_of_ok hread

/-- Where nothing depends on whether the token is taken. -/
theorem accept (kind : Kind) :
    Progresses cost 0 rank left (Reader.accept kind) (Reader.accept kind) := by
  refine of_unbounded (fun input a rest h => ?_) (fun input e h => ?_)
  all_goals
    unfold Reader.accept at h
    split at h
    all_goals cases h
  · exact .advance_any input
  · exact .refl input

theorem acceptName : Progresses cost 0 rank left Reader.acceptName Reader.acceptName := by
  refine of_unbounded (fun input a rest h => ?_) (fun input e h => ?_)
  all_goals
    rcases acceptName_takesOne input with hread | ⟨⟨x, hread⟩, -⟩
    all_goals
      rw [hread] at h
      cases h
  · exact .refl input
  · exact .advance_any input

/-- Where the reading goes back if the token is not next. -/
theorem retrying {m : Reader α} {kind : Kind} {f f' : α → Reader β} {q q' : PUnit → Reader β}
    (hm : Progresses cost 0 rank left m m) (hf : ∀ a, Progresses cost least rank left (f a) (f' a))
    (hq : Progresses cost least rank left (q ⟨⟩) (q' ⟨⟩)) :
    Progresses cost least rank left
      (get >>= fun saved => m >>= fun a => Reader.accept kind >>= fun holds =>
        if holds then f a else set saved >>= q)
      (get >>= fun saved => m >>= fun a => Reader.accept kind >>= fun holds =>
        if holds then f' a else set saved >>= q') := by
  intro input
  cases hread : m input with
  | error e =>
      have hfails : ProgressesAt least _ (m >>= fun a => Reader.accept kind >>= fun holds =>
          if holds then f a else set input >>= q) (m >>= fun a => Reader.accept kind >>= fun holds =>
            if holds then f' a else set input >>= q') input := (hm input).of_error hread
      exact hfails.behind (k := 0) (.refl input) rfl fun _ => rfl
  | ok read =>
      obtain ⟨a, rest⟩ := read
      have hconsumed := (hm input).consumed a rest hread
      have haccept (f : α → Reader β) (q : PUnit → Reader β) :
          (get >>= fun saved => m >>= fun a => Reader.accept kind >>= fun holds =>
            if holds then f a else set saved >>= q) input =
              if rest.peek.kind = kind then f a rest.advance else q ⟨⟩ input := by
        change (m >>= fun a => Reader.accept kind >>= fun holds =>
          if holds then f a else set input >>= q) input = _
        rw [bind_of_ok hread]
        split
        · rename_i hpeek
          have hyes : Reader.accept kind rest = .ok (true, rest.advance) := if_pos hpeek
          exact bind_of_ok hyes
        · rename_i hpeek
          have hno : Reader.accept kind rest = .ok (false, rest) := if_neg hpeek
          exact bind_of_ok hno
      by_cases hpeek : rest.peek.kind = kind
      · have hadvance : input.Consumed 0 rest.advance := hconsumed.trans (.advance_any rest)
        exact ((hf a).behind (k := 0) hadvance).behind (k := 0) hadvance
          ((haccept f q).trans (if_pos hpeek)) fun _ => (haccept f' q').trans (if_pos hpeek)
      · exact (hq input).behind (k := 0) (.refl input)
          ((haccept f q).trans (if_neg hpeek)) fun _ => (haccept f' q').trans (if_neg hpeek)

/-! ## Lists of names -/

/-- A list whose bound is in the number of tokens: each of them pays for one step. -/
theorem counted {α : Type} {g : Nat → Reader α}
    (h : ∀ bound, Progresses 1 least 1 bound (g bound) (g bound)) :
    Progresses cost least rank left (upcoming >>= fun tokens => g (tokens.length + 1))
      (upcoming >>= fun tokens => g (tokens.length + 1)) := by
  refine of_unbounded (fun input => (h _ input).consumed) fun input => (h _ input).ends ?_
  omega

theorem nameList (bound : Nat) :
    Progresses 1 1 1 bound (Syntax.nameList bound) (Syntax.nameList bound) := by
  induction bound with
  | zero => exact of_none (fun input a rest h => by cases h) Nat.one_pos
  | succ bound ih =>
      unfold Syntax.nameList
      refine name.bind fun x => symbol .comma ?_ (pure _)
      exact ih.after rfl fun others => pure _

theorem parameters : Progresses cost 0 rank left parameters parameters := by
  unfold Syntax.parameters
  refine look _ fun isClosed => ite (pure _) ?_
  exact counted fun bound => (nameList bound).weaken (Nat.zero_le 1)

theorem binderNames (bound : Nat) :
    Progresses 1 0 1 bound (Syntax.binderNames bound) (Syntax.binderNames bound) := by
  induction bound with
  | zero => exact of_none (fun input a rest h => by cases h) Nat.one_pos
  | succ bound ih =>
      unfold Syntax.binderNames
      refine look _ fun isClosed => ite (pure _) ?_
      refine name.bind fun x => symbol .comma ?_ (pure _)
      exact ih.after rfl fun others => pure _

theorem binder : Progresses cost 1 rank left binder binder := by
  unfold Syntax.binder
  refine symbol .leftBracket ?_ (name.bind fun x => pure _)
  rw [← bind_assoc]
  refine (counted binderNames).passing fun names => ?_
  exact (expectSymbol .rightBracket _).bind fun _ => pure _

end Reader.Progresses

end StepTrace.Syntax
