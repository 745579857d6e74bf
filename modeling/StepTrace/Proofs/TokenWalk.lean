import StepTrace.Proofs.Parts
import StepTrace.Proofs.Readers
import StepTrace.Proofs.ScannedPieces

/-!
# Walks over tokens

While a reader takes tokens, the braces that are open, the headers that wait for a brace and
the bodies that have been closed are known from the tokens alone (`Braces`). A reader walks
from one such state to another (`Reader.Walks`), and what it reads is known to be what the
tokens between the two told. It is also known which tokens may be next to each other: the
scan can tell any two neighbours apart (`Walked`), because no reader goes on with a word that
begins a function right behind a numeral, or with a `>` behind an `=`.

* `Braces.step`: what a token does to the braces.
* `Border`: what is known of the last token taken and the next one.
* `Reader.Walks`: from which state to which the reader walks, and on which borders.
-/

namespace StepTrace.Syntax

open Capture

/-! ## Braces -/

/-- What tokens tell of a tree: the braces of a body that cannot be suspended, or the digits of
a large integer. -/
inductive Mark where
  | body (first last : Location)
  | bigint (digits : String)
deriving DecidableEq

/-- The open braces, the innermost first, with their places if they open a body that cannot be
suspended; whether a header waits for its brace; whether the word `async` has been read; and
the marks so far. -/
structure Braces where
  opened : List (Option Location) := []
  header : Bool := false
  isAsync : Bool := false
  done : List Mark := []

/-- A brace is opened at the place. -/
def Braces.open (b : Braces) (l : Location) : Braces :=
  { b with
    opened := (if b.header then some l else none) :: b.opened
    header := false, isAsync := false }

/-- A brace is closed at the place. -/
def Braces.close (b : Braces) (l : Location) : Braces :=
  { b with
    opened := b.opened.tail, isAsync := false
    done := b.done ++ match b.opened with
      | some first :: _ => [.body first l]
      | _ => [] }

/-- What a token does to the braces; an arrow may be one that opens a block. -/
def Braces.step (b : Braces) (token : Token) (opens : Bool) : Braces :=
  match token.kind with
  | .bigint digits => { b with done := b.done ++ [.bigint digits] }
  | .keyword .asyncKw => { b with isAsync := true }
  | .keyword .functionKw => { b with header := b.header || ! b.isAsync, isAsync := false }
  | .symbol .leftBrace => b.open token.loc
  | .symbol .rightBrace => b.close token.loc
  | .symbol .semicolon => { b with isAsync := false }
  | .symbol .arrow => { b with header := b.header || (opens && ! b.isAsync), isAsync := false }
  | _ => b

/-- Whether an opening brace is next that stands where a block of an arrow is seen. -/
def opensNext (seen : Location → Bool) (tokens : List Token) : Bool :=
  tokens.head?.any fun token => token.kind = .symbol .leftBrace && seen token.loc

/-- The braces behind all tokens. -/
def Braces.run (seen : Location → Bool) : Braces → List Token → Braces
  | b, [] => b
  | b, token :: rest => (b.step token (opensNext seen rest)).run seen rest

/-- Nothing is waiting for a brace. -/
structure Braces.Calm (b : Braces) : Prop where
  header : b.header = false
  isAsync : b.isAsync = false

/-- The mark that the tokens of a part leave. -/
def Part.mark? (seen : Location → Bool) : Part → Option Mark
  | .function (.mk _ _ _ isAsync isArrow (some (first, last))) =>
    if ! isAsync && (! isArrow || seen first) then some (.body first last) else none
  | .function _ => none
  | .bigint digits => some (.bigint digits)

/-- The braces with the marks of some parts. -/
def Braces.add (seen : Location → Bool) (b : Braces) (parts : List Part) : Braces :=
  { b with done := b.done ++ parts.filterMap (Part.mark? seen) }

section Add

variable {seen : Location → Bool} {b : Braces}

@[simp] theorem Braces.add_nil (b : Braces) : b.add seen [] = b := by
  simp [Braces.add]

@[simp] theorem Braces.add_add (b : Braces) (ps qs : List Part) :
    (b.add seen ps).add seen qs = b.add seen (ps ++ qs) := by
  simp [Braces.add]

theorem Braces.Calm.add (h : b.Calm) (ps : List Part) : (b.add seen ps).Calm :=
  ⟨h.header, h.isAsync⟩

end Add

/-- The token does nothing to the braces. -/
def isQuiet : Kind → Bool
  | .bigint _ | .keyword .asyncKw | .keyword .functionKw | .symbol .leftBrace
  | .symbol .rightBrace | .symbol .semicolon | .symbol .arrow => false
  | _ => true

theorem step_quiet {token : Token} (h : isQuiet token.kind = true) (b : Braces) (opens : Bool) :
    b.step token opens = b := by
  unfold Braces.step
  split <;> simp_all [isQuiet]

/-! ## Borders -/

/-- How much is known of the border between the last token and the next one: that the scan can
tell the two apart, or that it can if the next one may begin an expression, go on behind one,
or both. -/
inductive Border where
  | apart
  | fresh
  | ended
  | mild

/-- The next tokens for which something is known. -/
def Border.admits : Border → Kind → Bool
  | .apart, _ => true
  | .fresh, kind => ! startsGreater kind
  | .ended, kind => ! isFunctionWord kind
  | .mild, kind => ! startsGreater kind && ! isFunctionWord kind

/-- The last tokens for which it is known, whatever is next. -/
def Border.leaves : Border → Kind → Bool
  | .apart, kind => ! kind.isNumeral && ! endsInEqual kind
  | .fresh, kind => ! kind.isNumeral
  | .ended, kind => ! endsInEqual kind
  | .mild, _ => true

/-- What is known of the tokens at the border. -/
def Border.Holds (r : Border) (last next : Token) : Prop :=
  r.admits next.kind = true → Apart last next

theorem not_functionWord_of_greater {kind : Kind} (h : startsGreater kind = true) :
    isFunctionWord kind = false := by
  cases kind <;> simp_all [startsGreater, isFunctionWord]

theorem Border.holds_of_leaves {r : Border} {last : Token} (h : r.leaves last.kind = true)
    (next : Token) : r.Holds last next := by
  intro hadmits
  cases r with
  | apart =>
      simp only [Border.leaves, Bool.and_eq_true, Bool.not_eq_true'] at h
      exact ⟨fun _ hnumeral => by simp [h.1] at hnumeral, fun hend => by simp [h.2] at hend⟩
  | fresh =>
      simp only [Border.leaves, Border.admits, Bool.not_eq_true'] at h hadmits
      exact ⟨fun _ hnumeral => by simp [h] at hnumeral, fun _ => hadmits⟩
  | ended =>
      simp only [Border.leaves, Border.admits, Bool.not_eq_true'] at h hadmits
      exact ⟨fun hword => by simp [hadmits] at hword, fun hend => by simp [h] at hend⟩
  | mild =>
      simp only [Border.admits, Bool.and_eq_true, Bool.not_eq_true'] at hadmits
      exact ⟨fun hword => by simp [hadmits.2] at hword, fun _ => hadmits.1⟩

/-- The one border tells at least what the other one does. -/
def Border.Below (r r' : Border) : Prop :=
  ∀ kind, r'.admits kind = true → r.admits kind = true

theorem Border.Holds.mono {r r' : Border} {last next : Token} (h : r.Holds last next)
    (hle : r.Below r') : r'.Holds last next :=
  fun hadmits => h (hle _ hadmits)

theorem Border.apart_below (r : Border) : Border.apart.Below r :=
  fun _ _ => rfl

theorem Border.admits_of_plain {kind : Kind} (hgreater : startsGreater kind = false)
    (hword : isFunctionWord kind = false) (r : Border) : r.admits kind = true := by
  cases r <;> simp [Border.admits, hgreater, hword]

theorem Border.Below.refl (r : Border) : r.Below r :=
  fun _ h => h

theorem Border.below_mild (r : Border) : r.Below .mild := by
  intro kind h
  simp only [Border.admits, Bool.and_eq_true, Bool.not_eq_true'] at h
  cases r <;> simp [Border.admits, h]

/-! ## Walks -/

/-- The tokens before the rest have been walked over, with the one at last and with the braces
behind it, and the scan can tell any two neighbours among them apart. -/
inductive Walked (seen : Location → Bool) (all : List Token) :
    Token → Braces → List Token → Prop
  | start (l : Location) : Walked seen all ⟨.endOfInput, l⟩ {} all
  | next {last token : Token} {b : Braces} {rest : List Token}
    (h : Walked seen all last b (token :: rest)) (hapart : Apart last token)
    (hend : token.kind ≠ .endOfInput) :
    Walked seen all token (b.step token (opensNext seen rest)) rest

theorem Walked.run_eq {seen : Location → Bool} {all rest : List Token} {last : Token} {b : Braces}
    (h : Walked seen all last b rest) : Braces.run seen {} all = b.run seen rest := by
  induction h with
  | start l => rfl
  | next _ _ _ ih => exact ih

/-- The tokens that have been walked over. -/
theorem Walked.front {seen : Location → Bool} {all rest : List Token} {last : Token} {b : Braces}
    (h : Walked seen all last b rest) : ∃ l front, all = front ++ rest ∧
      (∀ token ∈ front, token.kind ≠ .endOfInput) ∧
      List.IsChain Apart (⟨.endOfInput, l⟩ :: front) ∧
      (⟨.endOfInput, l⟩ :: front : List Token).getLast? = some last := by
  induction h with
  | start l => exact ⟨l, [], rfl, List.forall_mem_nil _, List.isChain_singleton _, rfl⟩
  | @next last token b rest _ hapart hend ih =>
      obtain ⟨l, front, hall, hends, hchain, hlast⟩ := ih
      refine ⟨l, front ++ [token], by rw [hall]; simp, ?_, ?_, ?_⟩
      · exact List.forall_mem_append.mpr ⟨hends, List.forall_mem_singleton.mpr hend⟩
      · rw [← List.cons_append]
        refine List.isChain_append.mpr ⟨hchain, List.isChain_singleton _, ?_⟩
        intro x hx y hy
        obtain rfl : last = x := Option.some.inj (hlast.symm.trans hx)
        obtain rfl : token = y := by simpa using hy
        exact hapart
      · rw [← List.cons_append, List.getLast?_append]
        rfl

/-- The input stands behind a walk. -/
structure Input.At (seen : Location → Bool) (all : List Token) (b : Braces) (r : Border)
    (input : Input) (last : Token) : Prop where
  walked : Walked seen all last b input.tokens
  previous : last.loc = input.previous
  border : r.Holds last input.peek

variable {seen : Location → Bool} {all : List Token} {b b₁ : Braces} {r r₁ : Border}
  {input : Input} {last : Token}

/-- The next token is taken. -/
theorem Input.At.advance {kind : Kind} (h : input.At seen all b r last)
    (hpeek : input.peek.kind = kind) (hend : kind ≠ .endOfInput) (hadmits : r.admits kind = true)
    (hleaves : r₁.leaves kind = true) :
    input.advance.At seen all
      (b.step ⟨kind, input.peek.loc⟩ (opensNext seen input.advance.tokens)) r₁ input.peek := by
  subst hpeek
  obtain ⟨previous, tokens⟩ := input
  cases tokens with
  | nil => exact absurd rfl hend
  | cons token rest =>
      have hadvance : Input.advance ⟨previous, token :: rest⟩ = ⟨token.loc, rest⟩ := if_neg hend
      rw [hadvance]
      exact ⟨.next h.walked (h.border hadmits) hend, rfl, Border.holds_of_leaves hleaves _⟩

theorem Input.At.mono (h : input.At seen all b r last) (hle : r.Below r₁) :
    input.At seen all b r₁ last :=
  ⟨h.walked, h.previous, h.border.mono hle⟩

/-- From the one state on the one border the reader walks to a state that belongs to what it
reads, on the other border. -/
def Reader.Walks (seen : Location → Bool) (all : List Token) (b : Braces) (r : Border) {α : Type}
    (m : Reader α) (b' : α → Braces) (r' : Border) : Prop :=
  ∀ input last a rest, input.At seen all b r last → m input = .ok (a, rest) →
    ∃ last', rest.At seen all (b' a) r' last'

namespace Reader.Walks

variable {r₂ : Border} {α β : Type} {m : Reader α} {f : α → Reader β} {b₀ : α → Braces}
  {b' : β → Braces}

theorem pure {a : α} (h : b₀ a = b) (hle : r.Below r₁) : Walks seen all b r (pure a) b₀ r₁ := by
  rintro input last _ _ hat ⟨⟩
  exact ⟨last, by rw [h]; exact hat.mono hle⟩

theorem failAt (l : Location) (fault : Fault) : Walks seen all b r (failAt l fault) b₀ r₁ := by
  rintro input last a rest - ⟨⟩

theorem bind (hm : Walks seen all b r m b₀ r₁)
    (hf : ∀ a, Walks seen all (b₀ a) r₁ (f a) b' r₂) : Walks seen all b r (m >>= f) b' r₂ := by
  intro input last y rest hat h
  obtain ⟨x, input', hread, hgoes⟩ := Reader.bind_ok h
  obtain ⟨last', hat'⟩ := hm input last x input' hat hread
  exact hf x input' last' y rest hat' hgoes

theorem mono {r' r₁' : Border} (hm : Walks seen all b r m b₀ r₁) (hle : r'.Below r)
    (hle' : r₁.Below r₁') : Walks seen all b r' m b₀ r₁' := by
  intro input last a rest hat h
  obtain ⟨last', hat'⟩ := hm input last a rest (hat.mono hle) h
  exact ⟨last', hat'.mono hle'⟩

/-- Where nothing is taken. -/
theorem look (g : Input → α) (hf : ∀ a, Walks seen all b r (f a) b' r₁) :
    Walks seen all b r ((fun input => .ok (g input, input) : Reader α) >>= f) b' r₁ :=
  fun input last a rest hat h => hf (g input) input last a rest hat h

/-- Where it is decided by looking at the next tokens how to go on. -/
theorem choice (g : Input → Bool) {q q' : Reader β} (hq : Walks seen all b r q b' r₁)
    (hq' : Walks seen all b r q' b' r₁) :
    Walks seen all b r ((fun input => .ok (g input, input) : Reader Bool) >>=
      fun holds => if holds then q else q') b' r₁ := by
  refine look g fun holds => ?_
  split
  · exact hq
  · exact hq'

end Reader.Walks

/-- The token may be taken on the border and does nothing to the braces; on the other border it
may be left. -/
structure Passable (b : Braces) (r r₁ : Border) (kind : Kind) : Prop where
  quiet : ∀ (token : Token) opens, token.kind = kind → b.step token opens = b
  admits : r.admits kind = true
  leaves : r₁.leaves kind = true
  notEnd : kind ≠ .endOfInput

theorem Input.At.pass {kind : Kind} (h : input.At seen all b r last)
    (hkind : Passable b r r₁ kind) (hpeek : input.peek.kind = kind) :
    input.advance.At seen all b r₁ input.peek := by
  have hat := h.advance hpeek hkind.notEnd hkind.admits hkind.leaves
  rwa [hkind.quiet ⟨kind, input.peek.loc⟩ _ rfl] at hat

/-- On a border of which more is known the token may be taken as well. -/
theorem Passable.mono {r' : Border} {kind : Kind} (h : Passable b r r₁ kind) (hle : r'.Below r) :
    Passable b r' r₁ kind :=
  ⟨h.quiet, hle _ h.admits, h.leaves, h.notEnd⟩

theorem passable_of_quiet {kind : Kind} (hquiet : isQuiet kind = true)
    (hadmits : r.admits kind = true) (hleaves : r₁.leaves kind = true)
    (hend : kind ≠ .endOfInput) (b : Braces) : Passable b r r₁ kind := by
  refine ⟨?_, hadmits, hleaves, hend⟩
  rintro token opens rfl
  exact step_quiet hquiet b opens

/-- A symbol or a keyword that does nothing to the braces and that the scan can tell from every
other token. -/
def isPlain (kind : Kind) : Bool :=
  isQuiet kind && ! startsGreater kind && ! isFunctionWord kind && ! kind.isNumeral &&
    ! endsInEqual kind && kind != .endOfInput

theorem passable {kind : Kind} (h : isPlain kind = true) (r₁ : Border) :
    Passable b r r₁ kind := by
  simp only [isPlain, Bool.and_eq_true, Bool.not_eq_true', bne_iff_ne] at h
  obtain ⟨⟨⟨⟨⟨hquiet, hgreater⟩, hword⟩, hnumeral⟩, hequal⟩, hend⟩ := h
  refine passable_of_quiet hquiet ?_ ?_ hend b
  · exact Border.admits_of_plain hgreater hword r
  · cases r₁ <;> simp [Border.leaves, hnumeral, hequal]

/-- Where nothing waits for a brace, a semicolon does nothing. -/
theorem passable_semicolon (hb : b.Calm) (r₁ : Border) :
    Passable b r r₁ (.symbol .semicolon) := by
  refine ⟨?_, ?_, ?_, nofun⟩
  · rintro token opens hkind
    simp [Braces.step, hkind, ← hb.isAsync]
  · exact Border.admits_of_plain rfl rfl r
  · cases r₁ <;> rfl

namespace Reader.Walks

variable {r₂ : Border} {α β : Type} {m : Reader α} {f : α → Reader β} {b₀ : α → Braces}
  {b' : β → Braces}

/-- Where a token may be taken if it is next. -/
theorem taking {kind : Kind} (hkind : Passable b r r₁ kind) {q q' : Reader β}
    (hq : Walks seen all b r₁ q b' r₂) (hq' : Walks seen all b r q' b' r₂) :
    Walks seen all b r (accept kind >>= fun holds => if holds then q else q') b' r₂ := by
  intro input last a rest hat h
  change (accept kind input >>= fun read => (if read.1 then q else q') read.2) = .ok (a, rest) at h
  unfold accept at h
  split at h
  · rename_i hpeek
    exact hq input.advance _ a rest (hat.pass hkind hpeek) h
  · exact hq' input last a rest hat h

/-- Where a token may be taken, and nothing else depends on it. -/
theorem accept {kind : Kind} (hkind : Passable b r r₁ kind) (hle : r.Below r₁) :
    Walks seen all b r (accept kind) (fun _ => b) r₁ := by
  intro input last a rest hat h
  unfold Reader.accept at h
  split at h
  · rename_i hpeek
    cases h
    exact ⟨_, hat.pass hkind hpeek⟩
  · cases h
    exact ⟨last, hat.mono hle⟩

/-- Where a token has to be next. -/
theorem expecting {kind : Kind} (hkind : Passable b r r₁ kind) (what : String)
    {f : Unit → Reader β} (hf : Walks seen all b r₁ (f ()) b' r₂) :
    Walks seen all b r (expect kind what >>= f) b' r₂ := by
  intro input last a rest hat h
  change (expect kind what input >>= fun read => f read.1 read.2) = .ok (a, rest) at h
  unfold expect at h
  split at h
  · rename_i hpeek
    exact hf input.advance _ a rest (hat.pass hkind hpeek) h
  · cases h

/-- Where a statement has to end. -/
theorem ending (hb : b.Calm) (context : String) {f : Unit → Reader β}
    (hf : Walks seen all b .apart (f ()) b' r₁) :
    Walks seen all b .ended (endStatement context >>= f) b' r₁ := by
  intro input last a rest hat h
  change (endStatement context input >>= fun read => f read.1 read.2) = .ok (a, rest) at h
  unfold endStatement at h
  split at h
  · rename_i hpeek
    exact hf input.advance _ a rest (hat.pass (passable_semicolon hb .apart) hpeek) h
  · split at h
    · rename_i hend
      refine hf input last a rest ⟨hat.walked, hat.previous, fun _ => ?_⟩ h
      cases hword : isFunctionWord input.peek.kind with
      | false => exact hat.border (by simp [Border.admits, hword])
      | true =>
          -- a word that begins a function can end the statement only by standing on a new line
          have hother : input.peek.kind ≠ .endOfInput ∧
              input.peek.kind ≠ .symbol .rightBrace := by
            constructor <;> intro hkind <;> simp [hkind, isFunctionWord] at hword
          simp only [gt_iff_lt, Bool.or_eq_true, decide_eq_true_eq, hother.1, hother.2,
            or_false] at hend
          refine ⟨fun _ _ hline => ?_, fun _ => ?_⟩
          · rw [hat.previous] at hline
            exact absurd hline (Nat.ne_of_lt hend)
          · cases hgreater : startsGreater input.peek.kind with
            | false => rfl
            | true => simp [not_functionWord_of_greater hgreater] at hword
    · cases h

/-- Where a name has to be next. -/
theorem name : Walks seen all b r Reader.name (fun _ => b) .apart := by
  intro input last x rest hat h
  unfold Reader.name at h
  split at h
  · rename_i text hpeek
    cases h
    exact ⟨_, hat.pass (passable rfl .apart) hpeek⟩
  · cases h

theorem acceptName (hle : r.Below r₁) : Walks seen all b r acceptName (fun _ => b) r₁ := by
  intro input last x? rest hat h
  unfold Reader.acceptName at h
  split at h
  · rename_i text hpeek
    cases h
    exact ⟨_, hat.pass (passable rfl r₁) hpeek⟩
  · cases h
    exact ⟨last, hat.mono hle⟩

/-- Where the reading goes back to a place that is remembered. -/
theorem remembering {f : Input → Reader β}
    (hf : ∀ saved last, saved.At seen all b r last → Walks seen all b r (f saved) b' r₁) :
    Walks seen all b r (get >>= f) b' r₁ :=
  fun input last a rest hat h => hf input last hat input last a rest hat h

theorem goingBack {saved : Input} {last : Token} (hsaved : saved.At seen all b r last)
    {f : PUnit → Reader β} (hf : Walks seen all b r (f ⟨⟩) b' r₁) :
    Walks seen all b₁ r₂ (set saved >>= f) b' r₁ :=
  fun _ _ a rest _ h => hf saved last a rest hsaved h

end Reader.Walks

end StepTrace.Syntax
