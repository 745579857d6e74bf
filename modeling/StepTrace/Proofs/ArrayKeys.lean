import StepTrace.Eval.Program
import StepTrace.Proofs.ArrayOperations
import StepTrace.Proofs.ExactCounts
import StepTrace.Proofs.SpelledCounts

/-!
# Arrays under string keys

A string key of an array should name an element if it is a numeral, and then the element that the
number names; the key `length` should name the length, and every other one nothing (`KeyLaw`).

Two parsers decide about it. The first takes numerals only. A key that it refuses is tried as the
name of a member, though, and there the parser of counts takes it with a plus sign or with zeros in
front. Neither takes a numeral from `2 ^ 64` on, while a number that large is a position. So the law
holds of a key if and only if it is none of those (`keyLaw_iff`): `a["03"]` is the element `a[3]`
and should be `undefined`.

* `Denotes`: the numbers that are positions.
* `read_of_position`, `write_of_position`: positions as keys.
* `read_unread`, `write_unread`: keys that are read as no count.
* `sameKey_of_spellsLoosely`: keys that are read as a count.
-/

namespace StepTrace

open Syntax (Location)
open Number (Spells SpellsLoosely)

variable {heap : Heap} {place n : Nat} {key : String} {x : Float} {value : Value}

/-- The double is the count. -/
def Denotes (x : Float) (n : Nat) : Prop :=
  x ≥ 0 ∧ Number.isInteger x = true ∧ Number.toInt? x = some n

instance (x : Float) (n : Nat) : Decidable (Denotes x n) :=
  inferInstanceAs (Decidable (_ ∧ _ ∧ _))

/-- The array with the value at the position; one that is too short is first filled up with
`undefined`. -/
def withElement (items : Array Value) (position : Nat) (value : Value) : Array Value :=
  (resize items (max items.size (position + 1))).setIfInBounds position value

/-- The keys name the same of the array: it is read and written under one as under the other. -/
def SameKey (place : Nat) (key key' : Value) : Prop :=
  ∀ loc s,
    (Slot.index (.array place) key).read loc s = (Slot.index (.array place) key').read loc s ∧
      ∀ value, (Slot.index (.array place) key).write loc value s =
        (Slot.index (.array place) key').write loc value s

/-- What a string key of an array should name. -/
structure KeyLaw (key : String) : Prop where
  /-- A numeral names what its number names. -/
  number (place : Nat) {n : Nat} (h : Spells key.toList n) {x : Float} (hx : Denotes x n) :
    SameKey place (.string key) (.number x)
  /-- That is an element, -/
  element (place : Nat) (loc : Location) (s : State) {n : Nat} (h : Spells key.toList n) :
    (Slot.index (.array place) (.string key)).read loc s =
      .done ((s.heap.items place)[n]?.getD .undefined) s
  /-- which a write replaces, or makes where the array may be that long. -/
  replace (place : Nat) (loc : Location) (s : State) {n : Nat} (h : Spells key.toList n)
    (value : Value) :
    (Slot.index (.array place) (.string key)).write loc value s =
      if n < (s.heap.items place).size ∨ n < Limit.arrayLength then
        .done () (s.changeHeap (·.onArray place fun items => withElement items n value))
      else .stopped (.fault ⟨.arrayLength, loc⟩) s
  /-- The length is read -/
  length (place : Nat) (loc : Location) (s : State) (h : key = "length") :
    (Slot.index (.array place) (.string key)).read loc s =
      .done (.ofCount (s.heap.items place).size) s
  /-- and set. -/
  setLength (place : Nat) (loc : Location) (s : State) (h : key = "length") (value : Value) :
    (Slot.index (.array place) (.string key)).write loc value s =
      if Number.toCount (value.toNumber s.heap) ≤ Limit.arrayLength ∧
          Counts (value.toNumber s.heap) then
        .done () (s.changeHeap
          (·.onArray place (resize · (Number.toCount (value.toNumber s.heap)))))
      else .stopped (.fault ⟨.arrayLength, loc⟩) s
  /-- Under any other key there is nothing, -/
  nothing (place : Nat) (loc : Location) (s : State) (h : ∀ n, ¬ Spells key.toList n)
    (hlength : key ≠ "length") :
    (Slot.index (.array place) (.string key)).read loc s = .done .undefined s
  /-- and a write changes nothing. -/
  keep (place : Nat) (loc : Location) (s : State) (h : ∀ n, ¬ Spells key.toList n)
    (hlength : key ≠ "length") (value : Value) :
    (Slot.index (.array place) (.string key)).write loc value s = .done () (s.changeHeap id)

/-! ## Positions -/

theorem denotes_ofNat (h : n < 2 ^ 53) : Denotes (Number.ofNat n) n :=
  ⟨Number.ofNat_nonneg h, Number.isInteger_ofNat h, Number.toInt?_ofNat h⟩

theorem position?_number (h : Denotes x n) (hn : n < 2 ^ 64) :
    (Value.number x).position? = some n := by
  obtain ⟨hsign, hwhole, hint⟩ := h
  have hcount : Number.toCount x = n := by
    unfold Number.toInt? at hint
    unfold Number.toCount
    cases hparts : Number.Dyadic.ofFloat? x with
    | none =>
        rw [hparts] at hint
        cases hint
    | some d =>
        rw [hparts] at hint
        have hd : d.toInt = n := Option.some.inj hint
        unfold Number.Dyadic.toInt at hd
        dsimp only
        split at hd
        · rw [if_pos ‹_›]
          omega
        · rw [if_neg ‹_›]
          have : (1 <<< 64 - 1 : Nat) = 2 ^ 64 - 1 := rfl
          omega
  have htest : (x ≥ 0 && Number.isInteger x) = true := by simp [hsign, hwhole]
  rw [Value.position?, htest, if_pos rfl, hcount]

theorem position?_string :
    (Value.string key).position? = some n ↔ n < 2 ^ 64 ∧ Spells key.toList n := by
  change (Option.filter _ _) = _ ↔ _
  rw [Option.filter_eq_some_iff, Number.readCount?_eq_some_iff]
  constructor
  · rintro ⟨⟨hn, -⟩, hspells⟩
    exact ⟨hn, (eq_of_beq hspells).symm⟩
  · rintro ⟨hn, hspells⟩
    exact ⟨⟨hn, Number.Spells.loosely hspells⟩, beq_iff_eq.mpr hspells.symm⟩

/-! ## Elements -/

theorem onArray_congr {change change' : Array Value → Array Value}
    (h : change (heap.items place) = change' (heap.items place)) :
    heap.onArray place change = heap.onArray place change' := by
  unfold Heap.onArray
  congr 1
  by_cases hplace : place < heap.arrays.size
  · have hitems : heap.items place = heap.arrays[place] := by
      simp [Heap.items, Array.getElem?_eq_getElem hplace]
    rw [hitems] at h
    refine Array.ext (by simp) fun i hi _ => ?_
    simp only [Array.getElem_modify]
    split
    · rename_i heq
      subst heq
      exact h
    · rfl
  · refine Array.ext (by simp) fun i hi _ => ?_
    have hi : i < heap.arrays.size := by simpa using hi
    rw [Array.getElem_modify_of_ne (by omega), Array.getElem_modify_of_ne (by omega)]

theorem withElement_of_lt {items : Array Value} (h : n < items.size) :
    withElement items n value = items.setIfInBounds n value := by
  rw [withElement, Nat.max_eq_left h, resize, if_neg (Nat.lt_irrefl _), Nat.sub_self]
  simp

theorem withElement_of_le {items : Array Value} (h : items.size ≤ n) :
    withElement items n value = (resize items n).push value := by
  have hgrown : resize items (n + 1) = (resize items n).push .undefined := by
    rw [resize, resize, if_neg (by omega), if_neg (by omega), Nat.succ_sub h]
    simp [Array.replicate_succ]
  have hsize : (resize items n).size = n := size_resize items n
  rw [withElement, Nat.max_eq_right (by omega), hgrown]
  refine Array.ext (by simp) fun i hi _ => ?_
  have hi : i < n + 1 := by simpa [hsize] using hi
  rcases Nat.lt_or_eq_of_le (Nat.le_of_lt_succ hi) with hlt | rfl
  · rw [Array.getElem_setIfInBounds_ne (by simp; omega) (by omega),
      Array.getElem_push_lt (by omega), Array.getElem_push_lt (by omega)]
  · rw [Array.getElem_setIfInBounds_self]
    simp [Array.getElem_push, hsize]

theorem perform_item (heap : Heap) (place n : Nat) (value : Value) :
    heap.perform (.item place n value) =
      heap.onArray place fun items => withElement items n value := by
  refine onArray_congr ?_
  split
  · rw [withElement_of_lt ‹_›]
  · rw [withElement_of_le (by omega)]

theorem setItem_eq_ite (heap : Heap) (place n : Nat) (value : Value) :
    Value.setItem heap place n value =
      if n < (heap.items place).size ∨ n < Limit.arrayLength then .ok (.item place n value)
      else .error .arrayLength := by
  unfold Value.setItem
  by_cases hn : n < (heap.items place).size
  · rw [if_neg (by omega), if_pos (Or.inl hn)]
    rfl
  · rw [if_pos (by omega), Limit.checkArray_eq]
    by_cases hlimit : n < Limit.arrayLength
    · rw [if_pos (by omega), if_pos (Or.inr hlimit)]
      rfl
    · rw [if_neg (by omega), if_neg (by omega)]
      rfl

/-! ## Slots -/

theorem read_of_indexed {key : Value} {s : State}
    (h : (Value.array place).indexed s.heap key = .ok value) (loc : Location) :
    (Slot.index (.array place) key).read loc s = .done value s := by
  change Eval.consultAt loc _ s = _
  rw [Eval.consultAt_apply, h]

theorem sameKey_of_indexed {key key' : Value}
    (hread : ∀ heap, (Value.array place).indexed heap key = (Value.array place).indexed heap key')
    (hwrite : ∀ heap value, (Value.array place).setIndexed heap key value =
      (Value.array place).setIndexed heap key' value) : SameKey place key key' := by
  intro loc s
  constructor
  · change Eval.consultAt loc _ s = Eval.consultAt loc _ s
    rw [Eval.consultAt_apply, Eval.consultAt_apply, hread]
  · intro value
    change Eval.write loc _ s = Eval.write loc _ s
    rw [Eval.write_apply, Eval.write_apply, hwrite]

/-! ## Positions as keys -/

theorem indexed_of_position {key : Value} (h : key.position? = some n) (heap : Heap) :
    (Value.array place).indexed heap key = .ok (Value.item heap place n) := by
  unfold Value.indexed
  dsimp only
  rw [h]

theorem setIndexed_of_position {key : Value} (h : key.position? = some n) (heap : Heap)
    (value : Value) :
    (Value.array place).setIndexed heap key value = Value.setItem heap place n value := by
  unfold Value.setIndexed
  dsimp only
  rw [h]

theorem sameKey_of_position {key key' : Value} (h : key.position? = some n)
    (h' : key'.position? = some n) (place : Nat) : SameKey place key key' :=
  sameKey_of_indexed
    (fun heap => (indexed_of_position h heap).trans (indexed_of_position h' heap).symm)
    fun heap value =>
      (setIndexed_of_position h heap value).trans (setIndexed_of_position h' heap value).symm

theorem read_of_position {key : Value} (h : key.position? = some n) (place : Nat) (loc : Location)
    (s : State) : (Slot.index (.array place) key).read loc s =
      .done ((s.heap.items place)[n]?.getD .undefined) s :=
  read_of_indexed (indexed_of_position h s.heap) loc

theorem write_of_position {key : Value} (h : key.position? = some n) (place : Nat) (loc : Location)
    (s : State) (value : Value) :
    (Slot.index (.array place) key).write loc value s =
      if n < (s.heap.items place).size ∨ n < Limit.arrayLength then
        .done () (s.changeHeap (·.onArray place fun items => withElement items n value))
      else .stopped (.fault ⟨.arrayLength, loc⟩) s := by
  have hwrite := (setIndexed_of_position h s.heap value).trans (setItem_eq_ite s.heap place n value)
  change Eval.write loc _ s = _
  rw [Eval.write_of_ite hwrite]
  simp only [State.changeHeap, perform_item]

/-! ## Other strings as keys -/

section Members

variable (h : ∀ n < 2 ^ 64, ¬ Spells key.toList n)

include h

theorem position?_eq_none : (Value.string key).position? = none := by
  refine Option.eq_none_iff_forall_ne_some.mpr fun n hn => ?_
  obtain ⟨hlt, hspells⟩ := position?_string.mp hn
  exact h n hlt hspells

theorem indexed_eq_member (heap : Heap) : (Value.array place).indexed heap (.string key) =
    (Value.array place).member heap key := by
  unfold Value.indexed
  dsimp only
  rw [position?_eq_none h]
  rfl

theorem setIndexed_eq_setMember (heap : Heap) (value : Value) :
    (Value.array place).setIndexed heap (.string key) value =
      (Value.array place).setMember heap key value := by
  unfold Value.setIndexed
  dsimp only
  rw [position?_eq_none h]

end Members

theorem member_of_ne_length (hlength : key ≠ "length") (heap : Heap) (place : Nat) :
    (Value.array place).member heap key =
      .ok (((Number.readCount? 10 key.toList).map (Value.item heap place)).getD .undefined) :=
  if_neg hlength

theorem setMember_of_ne_length (hlength : key ≠ "length") (heap : Heap) (place : Nat)
    (value : Value) :
    (Value.array place).setMember heap key value = match Number.readCount? 10 key.toList with
      | some n => Value.setItem heap place (Number.toCount (Number.ofNat n)) value
      | none => .ok .nothing :=
  if_neg hlength

section Unread

variable (h : ∀ n < 2 ^ 64, ¬ SpellsLoosely key.toList n)

include h

theorem readCount?_eq_none : Number.readCount? 10 key.toList = none := by
  refine Option.eq_none_iff_forall_ne_some.mpr fun n hn => ?_
  obtain ⟨hlt, hspells⟩ := Number.readCount?_eq_some_iff.mp hn
  exact h n hlt hspells

/-- A key that is read as no count and is not the name of the length names nothing. -/
theorem read_unread (hlength : key ≠ "length") (place : Nat) (loc : Location) (s : State) :
    (Slot.index (.array place) (.string key)).read loc s = .done .undefined s := by
  refine read_of_indexed ?_ loc
  rw [indexed_eq_member fun n hn hspells => h n hn hspells.loosely, member_of_ne_length hlength,
    readCount?_eq_none h]
  rfl

theorem write_unread (hlength : key ≠ "length") (place : Nat) (loc : Location) (s : State)
    (value : Value) :
    (Slot.index (.array place) (.string key)).write loc value s = .done () (s.changeHeap id) := by
  change Eval.write loc _ s = _
  rw [Eval.write_apply, setIndexed_eq_setMember fun n hn hspells => h n hn hspells.loosely,
    setMember_of_ne_length hlength, readCount?_eq_none h]
  rfl

end Unread

theorem ne_length_of_spellsLoosely (h : SpellsLoosely key.toList n) : key ≠ "length" := by
  rintro rfl
  have hletter : 'l' ∈ "length".toList := by decide
  exact absurd (h.isDigit_or_plus hletter) (by decide)

theorem read_length (place : Nat) (loc : Location) (s : State) :
    (Slot.index (.array place) (.string "length")).read loc s =
      .done (.ofCount (s.heap.items place).size) s :=
  read_of_indexed
    (indexed_eq_member (fun _ _ hspells => ne_length_of_spellsLoosely hspells.loosely rfl) s.heap)
    loc

theorem write_length (place : Nat) (loc : Location) (s : State) (value : Value) :
    (Slot.index (.array place) (.string "length")).write loc value s =
      if Number.toCount (value.toNumber s.heap) ≤ Limit.arrayLength ∧
          Counts (value.toNumber s.heap) then
        .done () (s.changeHeap
          (·.onArray place (resize · (Number.toCount (value.toNumber s.heap)))))
      else .stopped (.fault ⟨.arrayLength, loc⟩) s := by
  have hmember : (Value.array place).setIndexed s.heap (.string "length") value =
      Value.setLength s.heap place value :=
    setIndexed_eq_setMember (fun _ _ hspells => ne_length_of_spellsLoosely hspells.loosely rfl)
      s.heap value
  change Eval.write loc _ s = _
  rw [Eval.write_of_ite (hmember.trans (Value.setLength_eq s.heap place value))]
  rfl

/-! ## Counts as keys -/

section Counts

variable (h : SpellsLoosely key.toList n)

include h

theorem not_spells_of_spellsLoosely (hspells : ¬ Spells key.toList n) :
    ∀ m, ¬ Spells key.toList m := by
  intro m hm
  rw [hm.loosely.unique h] at hm
  exact hspells hm

/-- A key that is read as a count names an element, whether it is a numeral or not. -/
theorem indexed_of_spellsLoosely (hn : n < 2 ^ 64) (heap : Heap) :
    (Value.array place).indexed heap (.string key) = .ok (Value.item heap place n) := by
  by_cases hspells : Spells key.toList n
  · exact indexed_of_position (position?_string.mpr ⟨hn, hspells⟩) heap
  · rw [indexed_eq_member fun m _ => not_spells_of_spellsLoosely h hspells m,
      member_of_ne_length (ne_length_of_spellsLoosely h),
      Number.readCount?_eq_some_iff.mpr ⟨hn, h⟩]
    rfl

theorem setIndexed_of_spellsLoosely (hn : n < 2 ^ 53) (heap : Heap) (value : Value) :
    (Value.array place).setIndexed heap (.string key) value =
      Value.setItem heap place n value := by
  have hlt : n < 2 ^ 64 := by omega
  by_cases hspells : Spells key.toList n
  · exact setIndexed_of_position (position?_string.mpr ⟨hlt, hspells⟩) heap value
  · rw [setIndexed_eq_setMember fun m _ => not_spells_of_spellsLoosely h hspells m,
      setMember_of_ne_length (ne_length_of_spellsLoosely h),
      Number.readCount?_eq_some_iff.mpr ⟨hlt, h⟩]
    -- the count goes to the array through a double and back
    dsimp only
    rw [Number.toCount_ofNat hn]

/-- It is the same key as the count itself. -/
theorem sameKey_of_spellsLoosely (hn : n < 2 ^ 53) (place : Nat) :
    SameKey place (.string key) (.ofCount n) := by
  have hlt : n < 2 ^ 64 := by omega
  have hnumber : (Value.ofCount n).position? = some n := position?_number (denotes_ofNat hn) hlt
  refine sameKey_of_indexed (fun heap => ?_) fun heap value => ?_
  · rw [indexed_of_spellsLoosely h hlt, indexed_of_position hnumber]
  · rw [setIndexed_of_spellsLoosely h hn, setIndexed_of_position hnumber]

end Counts

/-! ## The law -/

/-- The state with one array. -/
def oneArray (items : Array Value) : State :=
  ⟨.initial, ⟨#[items], #[], #[]⟩, #[], .of []⟩

/-- Of the keys that are read as counts below `2 ^ 64`, the law holds only of the numerals. -/
theorem KeyLaw.spells (law : KeyLaw key) (hn : n < 2 ^ 64) (h : SpellsLoosely key.toList n) :
    Spells key.toList n := by
  by_contra hspells
  have hread := law.nothing 0 ⟨0, 0⟩ (oneArray (Array.replicate (n + 1) (.bool true)))
    (not_spells_of_spellsLoosely h hspells) (ne_length_of_spellsLoosely h)
  rw [read_of_indexed (indexed_of_spellsLoosely h hn _)] at hread
  have helement : Value.item (oneArray (Array.replicate (n + 1) (.bool true))).heap 0 n =
      .bool true := by
    simp [oneArray, Heap.items, Value.item]
  rw [helement] at hread
  cases hread

/-- It holds of no numeral from `2 ^ 64` on. -/
theorem KeyLaw.lt (law : KeyLaw key) (h : Spells key.toList n) : n < 2 ^ 64 := by
  by_contra hn
  have hunread : ∀ m < 2 ^ 64, ¬ SpellsLoosely key.toList m := by
    intro m hm hspells
    rw [hspells.unique h.loosely] at hm
    exact hn hm
  have hwrite := law.replace 0 ⟨0, 0⟩ (oneArray #[]) h .null
  have hsize : ((oneArray #[]).heap.items 0).size = 0 := rfl
  have hlimit : Limit.arrayLength ≤ 2 ^ 64 := by decide
  rw [write_unread hunread (ne_length_of_spellsLoosely h.loosely), if_neg (by omega)] at hwrite
  cases hwrite

/-- The law holds of a key if and only if the key is no count with a plus sign or needless zeros
and no numeral from `2 ^ 64` on. -/
theorem keyLaw_iff (key : String) :
    KeyLaw key ↔ (∀ n < 2 ^ 64, SpellsLoosely key.toList n → Spells key.toList n) ∧
      ∀ n, Spells key.toList n → n < 2 ^ 64 := by
  refine ⟨fun law => ⟨fun n hn h => law.spells hn h, fun n h => law.lt h⟩, ?_⟩
  rintro ⟨hstrict, hlt⟩
  have hposition {n : Nat} (h : Spells key.toList n) : (Value.string key).position? = some n :=
    position?_string.mpr ⟨hlt n h, h⟩
  have hunread (h : ∀ n, ¬ Spells key.toList n) : ∀ n < 2 ^ 64, ¬ SpellsLoosely key.toList n :=
    fun n hn hspells => h n (hstrict n hn hspells)
  exact {
    number := fun place n h x hx =>
      sameKey_of_position (hposition h) (position?_number hx (hlt n h)) place
    element := fun place loc s n h => read_of_position (hposition h) place loc s
    replace := fun place loc s n h => write_of_position (hposition h) place loc s
    length := by
      rintro place loc s rfl
      exact read_length place loc s
    setLength := by
      rintro place loc s rfl
      exact write_length place loc s
    nothing := fun place loc s h hlength => read_unread (hunread h) hlength place loc s
    keep := fun place loc s h hlength => write_unread (hunread h) hlength place loc s }

/-- With a needless zero in front: the fourth element is read where there should be nothing. -/
theorem not_keyLaw_zero : ¬ KeyLaw "03" := by
  intro law
  have hspells := law.spells (n := 3) (by decide) ⟨[], 1, Or.inl rfl, rfl⟩
  exact absurd hspells (by decide)

end StepTrace
