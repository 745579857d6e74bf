import StepTrace.Proofs.Snapshots

/-!
# What snapshots show

The document of a value is the tree that the value unfolds to (`Value.Unfolds`): a container
that is reached on two ways is written twice, and a container that contains itself has no tree
at all. `snapshot?_spec` says that the snapshot of a value is this tree, and that it is missing
only for functions and for values from which a cycle can be reached.

The recursion that makes a snapshot has a bound on its depth. `Copying` is the same recursion
without the bound, as the run of a program that goes down and comes back: the containers that
it is inside of are a stack, on which one is put before its contents are copied and from which
one is taken behind them, and the first value that cannot be copied ends everything that is
still open. A run that does not end has no derivation. Every value has one, with the outcome
that `snapshot?` gives.

Copying goes on with the values of a list one after another. One value alone is the list that
holds nothing else, and the contents of a container are the list below it.
-/

namespace StepTrace

namespace Value

open Relation

/-! ## The tree of a value -/

/-- The fields that the document of an object shows: those whose value is neither a function
nor undefined. -/
def shownFields (heap : Heap) (place : Nat) : List (String × Value) :=
  (heap.fields place).toList.filter fun field => ! (field.2.isFunction || field.2.isUndefined)

/-- The value unfolds to the document. -/
inductive Unfolds (heap : Heap) : Value → Json → Prop
  | undefined : Unfolds heap .undefined .null
  | null : Unfolds heap .null .null
  | bool (b : Bool) : Unfolds heap (.bool b) (.bool b)
  | number (x : Float) : Unfolds heap (.number x) (.ofFloat x)
  | bigint (n : Int) : Unfolds heap (.bigint n) (.string (toString n))
  | string (text : String) : Unfolds heap (.string text) (.string text)
  | function (place : Nat) : Unfolds heap (.function place) .null
  | native (function : Native) : Unfolds heap (.native function) .null
  | array (place : Nat) (items : List Json)
      (hlength : items.length = (heap.items place).size)
      (hitems : ∀ (i : Nat) (v : Value) (json : Json), (heap.items place)[i]? = some v →
        items[i]? = some json → Unfolds heap v json) :
      Unfolds heap (.array place) (.array items)
  | object (place : Nat) (fields : List (String × Json))
      (hnames : fields.map Prod.fst = (shownFields heap place).map Prod.fst)
      (hfields : ∀ (name : String) (v : Value) (json : Json),
        (heap.fields place)[name]? = some v → (name, json) ∈ fields → Unfolds heap v json) :
      Unfolds heap (.object place) (.object fields)

variable {heap : Heap} {v w : Value}

theorem mem_shownFields {place : Nat} {name : String} :
    (name, v) ∈ shownFields heap place ↔
      (heap.fields place)[name]? = some v ∧ v.isFunction = false ∧ v.isUndefined = false := by
  simp [shownFields, Std.TreeMap.mem_toList_iff_getElem?_eq_some]

/-- A field that is not shown has a value without contents. -/
theorem container?_eq_none_of_not_shown
    (h : ¬ (v.isFunction = false ∧ v.isUndefined = false)) : v.container? = none := by
  cases v <;> simp [isFunction, isUndefined, container?] at h ⊢

namespace Unfolds

theorem unique {json other : Json} (h : Unfolds heap v json) (h' : Unfolds heap v other) :
    json = other := by
  induction h generalizing other with
  | array place items hlength hitems ih =>
      cases h' with
      | array _ others hlength' hitems' =>
          have hsame : items = others := by
            refine List.ext_getElem (by omega) fun i hi hi' => ?_
            have hsize : i < (heap.items place).size := by omega
            have hv := Array.getElem?_eq_getElem hsize
            exact ih i _ _ hv (List.getElem?_eq_getElem hi)
              (hitems' i _ _ hv (List.getElem?_eq_getElem hi'))
          rw [hsame]
  | object place fields hnames hfields ih =>
      cases h' with
      | object _ others hnames' hfields' =>
          have hlength : fields.length = others.length := by
            simpa using congrArg List.length (hnames.trans hnames'.symm)
          have hsame : fields = others := by
            refine List.ext_getElem hlength fun i hi hi' => ?_
            have hname : fields[i].1 = others[i].1 := by
              have hmap := List.getElem_of_eq (hnames.trans hnames'.symm) (by simpa using hi)
              simpa using hmap
            have hmem : fields[i].1 ∈ (shownFields heap place).map Prod.fst := by
              rw [← hnames]
              exact List.mem_map_of_mem (List.getElem_mem hi)
            obtain ⟨field, hfield, hfirst⟩ := List.mem_map.mp hmem
            have hv := (mem_shownFields.mp hfield).1
            rw [hfirst] at hv
            have hother : (fields[i].1, others[i].2) ∈ others := by
              rw [hname]
              exact List.getElem_mem hi'
            have hjson := ih _ _ _ hv (List.getElem_mem hi) (hfields' _ _ _ hv hother)
            exact Prod.ext hname hjson
          rw [hsame]
  | _ => cases h'; rfl

/-- A value from which a cycle can be reached has no tree. -/
theorem not_reachesCycle {json : Json} (h : Unfolds heap v json) : ¬ ReachesCycle heap v := by
  induction h with
  | array place items hlength hitems ih =>
      intro hcycle
      obtain ⟨w, hvw, hw⟩ := hcycle.exists_holds
      obtain ⟨i, hi⟩ := List.mem_iff_getElem?.mp hvw
      rw [Array.getElem?_toList] at hi
      have hlt : i < items.length := by
        have hsize : i < (heap.items place).size := (Array.getElem?_eq_some_iff.mp hi).1
        omega
      exact ih i w _ hi (List.getElem?_eq_getElem hlt) hw
  | object place fields hnames hfields ih =>
      intro hcycle
      obtain ⟨w, hvw, hw⟩ := hcycle.exists_holds
      obtain ⟨field, hfield, rfl⟩ := List.mem_map.mp hvw
      have hvalue := Std.TreeMap.mem_toList_iff_getElem?_eq_some.mp hfield
      by_cases hshown : field.2.isFunction = false ∧ field.2.isUndefined = false
      · have hmem : field.1 ∈ fields.map Prod.fst := by
          rw [hnames]
          exact List.mem_map_of_mem (mem_shownFields.mpr ⟨hvalue, hshown⟩)
        obtain ⟨entry, hentry, hname⟩ := List.mem_map.mp hmem
        rw [← hname] at hvalue
        exact ih _ _ _ hvalue hentry hw
      · obtain ⟨u, hwu, -⟩ := hw.exists_holds
        simpa [container?_eq_none_of_not_shown hshown] using hwu.isSome_container?
  | _ =>
      intro hcycle
      obtain ⟨w, hvw, -⟩ := hcycle.exists_holds
      exact absurd hvw.isSome_container? (by simp [container?])

end Unfolds

/-! ## One level of copying -/

/-- The contents of a container that its document shows, in order. -/
def parts (heap : Heap) : Value → List Value
  | .array place => (heap.items place).toList
  | .object place => (shownFields heap place).map Prod.snd
  | _ => []

/-- The document of a value from the documents of its parts. -/
def document (heap : Heap) : Value → List Json → Json
  | .undefined, _ | .null, _ | .function _, _ | .native _, _ => .null
  | .bool b, _ => .bool b
  | .number x, _ => .ofFloat x
  | .bigint n, _ => .string (toString n)
  | .string text, _ => .string text
  | .array _, documents => .array documents
  | .object place, documents =>
      .object (((shownFields heap place).map Prod.fst).zip documents)

theorem holds_of_mem_parts (h : w ∈ parts heap v) : Holds heap v w := by
  cases v with
  | object place => exact (List.filter_sublist.map Prod.snd).subset h
  | _ => exact h

theorem ofList_intText (n : Int) : String.ofList (Number.intText n) = toString n := by
  cases n with
  | ofNat n => rfl
  | negSucc n =>
      rw [Number.intText, if_pos (Int.negSucc_lt_zero n)]
      exact String.ofList_cons

theorem snapshotWithin_plain (depth : Nat) (inside : List Place) (h : v.container? = none) :
    snapshotWithin heap depth inside v = some (document heap v []) := by
  cases v with
  | array place => cases h
  | object place => cases h
  | bigint n => cases depth <;> simp [snapshotWithin, document, ofList_intText]
  | _ => cases depth <;> rfl

theorem mapM_cons_eq {α β : Type} (f : α → Option β) (x : α) (rest : List α) :
    (x :: rest).mapM f = (f x).bind fun y => (rest.mapM f).map (y :: ·) := by
  rw [List.mapM_cons]
  cases f x with
  | none => rfl
  | some y => cases rest.mapM f <;> rfl

theorem mapM_fields (copy : Value → Option Json) (fields : List (String × Value)) :
    (fields.mapM fun field => (copy field.2).map fun json => (field.1, json)) =
      ((fields.map Prod.snd).mapM copy).map (fields.map Prod.fst).zip := by
  induction fields with
  | nil => rfl
  | cons field rest ih =>
      rw [mapM_cons_eq, ih, List.map_cons, List.map_cons, mapM_cons_eq]
      cases copy field.2 with
      | none => rfl
      | some json => cases (rest.map Prod.snd).mapM copy <;> rfl

theorem snapshotWithin_container {c : Place} (depth : Nat) (inside : List Place)
    (hc : v.container? = some c) :
    snapshotWithin heap (depth + 1) inside v =
      if c ∈ inside then none
      else ((parts heap v).mapM (snapshotWithin heap depth (c :: inside))).map
        (document heap v) := by
  cases v with
  | array place =>
      cases hc
      simp only [snapshotWithin, List.contains_eq_mem, decide_eq_true_eq]
      rfl
  | object place =>
      cases hc
      simp only [snapshotWithin, List.contains_eq_mem, decide_eq_true_eq, mapM_fields,
        Option.map_map]
      rfl
  | _ => cases hc

theorem forall₂_of_mapM {α β : Type} {f : α → Option β} {xs : List α} {ys : List β}
    (h : xs.mapM f = some ys) : List.Forall₂ (fun x y => f x = some y) xs ys := by
  induction xs generalizing ys with
  | nil =>
      cases h
      exact .nil
  | cons x rest ih =>
      rw [mapM_cons_eq] at h
      obtain ⟨y, hy, h⟩ := Option.bind_eq_some_iff.mp h
      obtain ⟨others, hothers, rfl⟩ := Option.map_eq_some_iff.mp h
      exact .cons hy (ih hothers)

theorem unfolds_document {documents : List Json}
    (h : List.Forall₂ (Unfolds heap) (parts heap v) documents) :
    Unfolds heap v (document heap v documents) := by
  obtain ⟨hlength, hparts⟩ := List.forall₂_iff_get.mp h
  cases v with
  | array place =>
      refine .array place documents (by simpa [parts] using hlength.symm) ?_
      intro i v json hv hjson
      rw [← Array.getElem?_toList] at hv
      obtain ⟨hi, rfl⟩ := List.getElem?_eq_some_iff.mp hv
      obtain ⟨hi', rfl⟩ := List.getElem?_eq_some_iff.mp hjson
      exact hparts i hi hi'
  | object place =>
      have hnames : (shownFields heap place).length = documents.length := by
        simpa [parts] using hlength
      refine .object place _ (List.map_fst_zip (by simp [hnames])) ?_
      intro name v json hv hjson
      obtain ⟨i, hi, hentry⟩ := List.getElem_of_mem hjson
      rw [List.getElem_zip, Prod.mk.injEq, List.getElem_map] at hentry
      obtain ⟨rfl, rfl⟩ := hentry
      have hi : i < (shownFields heap place).length := by
        rw [List.length_zip, List.length_map] at hi
        omega
      have hfield : (heap.fields place)[((shownFields heap place)[i]).1]? =
          some ((shownFields heap place)[i]).2 :=
        (mem_shownFields.mp (List.getElem_mem hi)).1
      rw [hfield] at hv
      cases hv
      have hpart := hparts i (by simpa [parts] using hi) (by omega)
      simpa [parts] using hpart
  | _ => constructor

theorem parts_eq_nil (hc : v.container? = none) : parts heap v = [] := by
  cases v with
  | array place => cases hc
  | object place => cases hc
  | _ => rfl

theorem unfolds_of_snapshotWithin_plain {depth : Nat} {inside : List Place} {json : Json}
    (hc : v.container? = none) (h : snapshotWithin heap depth inside v = some json) :
    Unfolds heap v json := by
  rw [snapshotWithin_plain _ _ hc] at h
  cases h
  refine unfolds_document ?_
  rw [parts_eq_nil hc]
  exact .nil

/-- What copying returns, however it was begun, is the tree of the value. -/
theorem unfolds_of_snapshotWithin {depth : Nat} {inside : List Place} {json : Json}
    (h : snapshotWithin heap depth inside v = some json) : Unfolds heap v json := by
  induction depth generalizing v inside json with
  | zero =>
      have hsome : (snapshotWithin heap 0 inside v).isSome := by simp [h]
      exact unfolds_of_snapshotWithin_plain ((isSome_snapshotWithin_zero inside).mp hsome) h
  | succ depth ih =>
      cases hc : v.container? with
      | none => exact unfolds_of_snapshotWithin_plain hc h
      | some c =>
          rw [snapshotWithin_container depth inside hc] at h
          split at h
          · cases h
          · obtain ⟨documents, hdocuments, rfl⟩ := Option.map_eq_some_iff.mp h
            exact unfolds_document ((forall₂_of_mapM hdocuments).imp fun _ _ => ih)

/-! ## Copying without a bound -/

/-- While the containers of the stack are being copied, copying the values one after another
ends with the outcome, which is nothing if one of them cannot be copied, and leaves the stack
behind it. -/
inductive Copying (heap : Heap) :
    List Place → List Value → Option (List Json) → List Place → Prop
  | nil (stack : List Place) : Copying heap stack [] (some []) stack
  /-- A value without contents. -/
  | plain {stack behind : List Place} {v : Value} {rest : List Value}
      {outcome : Option (List Json)} (hv : v.container? = none)
      (hrest : Copying heap stack rest outcome behind) :
      Copying heap stack (v :: rest) (outcome.map (document heap v [] :: ·)) behind
  /-- A container that is being copied. -/
  | again {stack : List Place} {v : Value} {rest : List Value} {c : Place}
      (hc : v.container? = some c) (hmem : c ∈ stack) :
      Copying heap stack (v :: rest) none stack
  /-- A container with contents that cannot be copied. -/
  | stuck {stack behind : List Place} {v : Value} {rest : List Value} {c : Place}
      (hc : v.container? = some c) (hnew : c ∉ stack)
      (hparts : Copying heap (c :: stack) (parts heap v) none behind) :
      Copying heap stack (v :: rest) none behind.tail
  /-- Any other container. -/
  | container {stack middle behind : List Place} {v : Value} {rest : List Value} {c : Place}
      {documents : List Json} {outcome : Option (List Json)}
      (hc : v.container? = some c) (hnew : c ∉ stack)
      (hparts : Copying heap (c :: stack) (parts heap v) (some documents) middle)
      (hrest : Copying heap middle.tail rest outcome behind) :
      Copying heap stack (v :: rest) (outcome.map (document heap v documents :: ·)) behind

/-- Making the snapshot of the value ends with the outcome. -/
inductive Finishes (heap : Heap) (v : Value) : Option Json → Prop
  | function (hfunction : v.isFunction = true) : Finishes heap v none
  | stuck {behind : List Place} (hfunction : v.isFunction = false)
      (hcopying : Copying heap [] [v] none behind) : Finishes heap v none
  | copied {json : Json} {behind : List Place} (hfunction : v.isFunction = false)
      (hcopying : Copying heap [] [v] (some [json]) behind) : Finishes heap v (some json)

namespace Copying

variable {stack behind : List Place} {values : List Value} {outcome : Option (List Json)}

/-- Copying leaves the stack as it was, also when it ends early. -/
theorem restores (h : Copying heap stack values outcome behind) : behind = stack := by
  induction h with
  | nil => rfl
  | plain _ _ ih => exact ih
  | again => rfl
  | stuck _ _ _ ih => rw [ih, List.tail_cons]
  | container _ _ _ _ ihparts ihrest => rw [ihrest, ihparts, List.tail_cons]

theorem unique {other : Option (List Json)} {behind' : List Place}
    (h : Copying heap stack values outcome behind)
    (h' : Copying heap stack values other behind') : outcome = other := by
  induction h generalizing other behind' with
  | nil => cases h'; rfl
  | plain hv _ ih =>
      cases h' with
      | plain _ hrest => rw [ih hrest]
      | again hc _ => rw [hv] at hc; cases hc
      | stuck hc _ _ => rw [hv] at hc; cases hc
      | container hc _ _ _ => rw [hv] at hc; cases hc
  | again hc hmem =>
      cases h' with
      | plain hv _ => rw [hc] at hv; cases hv
      | again _ _ => rfl
      | stuck _ _ _ => rfl
      | container hc' hnew _ _ =>
          rw [hc] at hc'
          cases hc'
          exact absurd hmem hnew
  | stuck hc hnew _ ih =>
      cases h' with
      | plain hv _ => rw [hc] at hv; cases hv
      | again _ _ => rfl
      | stuck _ _ _ => rfl
      | container hc' _ hparts _ =>
          rw [hc] at hc'
          cases hc'
          cases ih hparts
  | container hc hnew hparts hrest ihparts ihrest =>
      cases h' with
      | plain hv _ => rw [hc] at hv; cases hv
      | again hc' hmem =>
          rw [hc] at hc'
          cases hc'
          exact absurd hmem hnew
      | stuck hc' _ hparts' =>
          rw [hc] at hc'
          cases hc'
          cases ihparts hparts'
      | container hc' _ hparts' hrest' =>
          rw [hc] at hc'
          cases hc'
          cases ihparts hparts'
          rw [hparts.restores] at ihrest
          rw [hparts'.restores] at hrest'
          rw [ihrest hrest']

end Copying

/-- With enough depth left, the recursion with the bound does what the one without it does. -/
theorem copying_mapM {depth : Nat} {stack : List Place} {values : List Value}
    (hinside : ∀ v ∈ values, Inside heap stack v)
    (hdepth : heap.containers < depth + stack.length) :
    Copying heap stack values (values.mapM (snapshotWithin heap depth stack)) stack := by
  induction depth generalizing stack values with
  | zero =>
      cases values with
      | nil => exact .nil stack
      | cons v rest =>
          have hle := (hinside v List.mem_cons_self).length_le
          omega
  | succ depth ih =>
      induction values with
      | nil => exact .nil stack
      | cons v rest ihrest =>
          obtain ⟨hv, hrest⟩ := List.forall_mem_cons.mp hinside
          rw [mapM_cons_eq]
          cases hc : v.container? with
          | none =>
              rw [snapshotWithin_plain _ _ hc]
              exact .plain hc (ihrest hrest)
          | some c =>
              rw [snapshotWithin_container _ _ hc]
              by_cases hmem : c ∈ stack
              · rw [if_pos hmem]
                exact .again hc hmem
              · rw [if_neg hmem]
                have hbelow : ∀ w ∈ parts heap v, Inside heap (c :: stack) w := fun w hw =>
                  hv.cons hc hmem (holds_of_mem_parts hw)
                have hparts := ih hbelow (by simp only [List.length_cons]; omega)
                cases hcopied : (parts heap v).mapM (snapshotWithin heap depth (c :: stack)) with
                | none =>
                    rw [hcopied] at hparts
                    exact .stuck hc hmem hparts
                | some documents =>
                    rw [hcopied] at hparts
                    exact .container hc hmem hparts (ihrest hrest)

/-- The recursion that makes a snapshot ends, with the snapshot as its outcome. -/
theorem finishes_snapshot? (heap : Heap) (v : Value) : Finishes heap v (v.snapshot? heap) := by
  unfold snapshot?
  by_cases hfunction : v.isFunction = true
  · rw [if_pos hfunction]
    exact .function hfunction
  · rw [if_neg hfunction]
    rw [Bool.not_eq_true] at hfunction
    have hcopying : Copying heap [] [v]
        ([v].mapM (snapshotWithin heap (heap.containers + 1) [])) [] :=
      copying_mapM (by simp [Inside.nil]) (by simp)
    rw [mapM_cons_eq] at hcopying
    cases hcopied : snapshotWithin heap (heap.containers + 1) [] v with
    | none =>
        rw [hcopied] at hcopying
        exact .stuck hfunction hcopying
    | some json =>
        rw [hcopied] at hcopying
        exact .copied hfunction hcopying

theorem Finishes.unique {outcome other : Option Json} (h : Finishes heap v outcome)
    (h' : Finishes heap v other) : outcome = other := by
  cases h with
  | function hfunction =>
      cases h' with
      | function _ => rfl
      | stuck _ _ => rfl
      | copied hnot _ => rw [hfunction] at hnot; cases hnot
  | stuck hfunction hcopying =>
      cases h' with
      | function _ => rfl
      | stuck _ _ => rfl
      | copied _ hcopying' => cases hcopying.unique hcopying'
  | copied hfunction hcopying =>
      cases h' with
      | function hnot => rw [hfunction] at hnot; cases hnot
      | stuck _ hcopying' => cases hcopying.unique hcopying'
      | copied _ hcopying' => cases hcopying.unique hcopying'; rfl

theorem snapshot?_eq_some_iff {json : Json} :
    v.snapshot? heap = some json ↔ v.isFunction = false ∧ Unfolds heap v json := by
  constructor
  · intro h
    have hsome : (v.snapshot? heap).isSome := by simp [h]
    have hfunction := (isSome_snapshot?_iff.mp hsome).1
    refine ⟨hfunction, ?_⟩
    rw [snapshot?, if_neg (by simp [hfunction])] at h
    exact unfolds_of_snapshotWithin h
  · rintro ⟨hfunction, hunfolds⟩
    have hsome := isSome_snapshot?_iff.mpr ⟨hfunction, hunfolds.not_reachesCycle⟩
    obtain ⟨other, hother⟩ := Option.isSome_iff_exists.mp hsome
    have hnot : ¬ v.isFunction = true := by simp [hfunction]
    have hcopied := hother
    rw [snapshot?, if_neg hnot] at hcopied
    rw [hother, hunfolds.unique (unfolds_of_snapshotWithin hcopied)]

/-- Making a snapshot ends in every heap and for every value, with one outcome. There is none
exactly for functions and for values from which a container that contains itself can be
reached; any other value has the tree that it unfolds to. -/
theorem snapshot?_spec (heap : Heap) (v : Value) :
    (∀ outcome, Finishes heap v outcome ↔ outcome = v.snapshot? heap) ∧
      (v.snapshot? heap = none ↔ v.isFunction = true ∨ ReachesCycle heap v) ∧
      ∀ json, v.snapshot? heap = some json ↔ v.isFunction = false ∧ Unfolds heap v json := by
  refine ⟨fun outcome => ⟨fun h => h.unique (finishes_snapshot? heap v), ?_⟩, ?_,
    fun json => snapshot?_eq_some_iff⟩
  · rintro rfl
    exact finishes_snapshot? heap v
  · rw [← Option.not_isSome_iff_eq_none, isSome_snapshot?_iff, Classical.not_and_iff_not_or_not,
      Classical.not_not, Bool.not_eq_false]

/-- A container that is held twice is copied twice. -/
example :
    Value.snapshot? ⟨#[#[.null], #[.array 0, .array 0]], #[], #[]⟩ (.array 1) =
      some (.array [.array [.null], .array [.null]]) := by
  rfl

end Value

end StepTrace
