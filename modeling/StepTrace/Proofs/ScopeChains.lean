import Mathlib.Data.List.Chain
import Mathlib.Data.List.Find
import StepTrace.Scope.Environment

/-!
# Chains of scopes

Going outwards from a scope leads through a chain of scopes (`Scopes.outwards`), and whatever
is asked of scopes is asked of the members of such a chain in turn. `nearest?` and `clearChain`
follow a parent only if its number is smaller. In a tree of scopes (`Scopes.Rooted`) that is no
restriction: every scope but the root lies in a scope with a smaller number, so every chain ends
at the root and meets no scope twice. No change of an environment leaves such a tree
(`Environment.Valid`).
-/

namespace StepTrace

namespace Scopes

variable {scopes : Scopes} {i j : Nat}

/-- The scopes from number `i` outwards, the innermost first. -/
def outwards (scopes : Scopes) (i : Nat) : List Nat :=
  match scopes.parent? i with
  | none => [i]
  | some j => if j < i then i :: outwards scopes j else [i]
termination_by i

/-- Where scope number `i` is in the tree: the scope around it, and whether it is the outermost
one of a function. -/
def place? (scopes : Scopes) (i : Nat) : Option (Option Nat × Bool) :=
  scopes[i]?.map fun scope => (scope.parent, scope.isFunction)

theorem isSome_place? : (scopes.place? i).isSome ↔ i < scopes.size := by
  simp [place?]

theorem parent?_eq (scopes : Scopes) (i : Nat) :
    scopes.parent? i = (scopes.place? i).bind Prod.fst := by
  rw [parent?, place?, Option.bind_map]
  rfl

theorem outwards_none (h : scopes.parent? i = none) : scopes.outwards i = [i] := by
  rw [outwards, h]

theorem outwards_some (h : scopes.parent? i = some j) (hlt : j < i) :
    scopes.outwards i = i :: scopes.outwards j := by
  rw [outwards, h]
  exact if_pos hlt

theorem head?_outwards (scopes : Scopes) (i : Nat) : (scopes.outwards i).head? = some i := by
  unfold outwards
  split
  · rfl
  · split
    · rfl
    · rfl

/-- The chain of a scope depends only on the tree, and there on no scope with a larger number. -/
theorem outwards_congr_upTo {scopes scopes' : Scopes} {i : Nat}
    (h : ∀ j ≤ i, scopes'.place? j = scopes.place? j) :
    scopes'.outwards i = scopes.outwards i := by
  have hparent : scopes'.parent? i = scopes.parent? i := by
    rw [parent?_eq, parent?_eq, h i (Nat.le_refl i)]
  fun_induction outwards scopes i with
  | case1 i hnone => rw [outwards_none (hparent.trans hnone)]
  | case2 i j hj hlt ih =>
      have hbelow : ∀ k ≤ j, scopes'.place? k = scopes.place? k := fun k hk =>
        h k (Nat.le_trans hk (Nat.le_of_lt hlt))
      have hparent' : scopes'.parent? j = scopes.parent? j := by
        rw [parent?_eq, parent?_eq, hbelow j (Nat.le_refl j)]
      rw [outwards_some (hparent.trans hj) hlt, ih hbelow hparent']
  | case3 i j hj hlt => simp [outwards, hparent, hj, hlt]

/-- The chain of a scope depends only on the tree. -/
theorem outwards_congr {scopes scopes' : Scopes} (h : ∀ j, scopes'.place? j = scopes.place? j)
    (i : Nat) : scopes'.outwards i = scopes.outwards i :=
  outwards_congr_upTo fun j _ => h j

/-- Every member of a chain but the first is the scope around the one before it. -/
theorem isChain_outwards (scopes : Scopes) (i : Nat) :
    (scopes.outwards i).IsChain fun a b => scopes.parent? a = some b := by
  fun_induction outwards scopes i with
  | case1 i hparent => exact .singleton i
  | case2 i j hparent hlt ih =>
      refine List.isChain_cons.mpr ⟨fun k hk => ?_, ih⟩
      rw [head?_outwards] at hk
      obtain rfl := Option.some.inj hk
      exact hparent
  | case3 i j hparent hlt => exact .singleton i

theorem le_of_mem_outwards (h : j ∈ scopes.outwards i) : j ≤ i := by
  fun_induction outwards scopes i with
  | case1 i hparent => exact Nat.le_of_eq (List.mem_singleton.mp h)
  | case2 i k hparent hlt ih =>
      rcases List.mem_cons.mp h with rfl | h
      · exact Nat.le_refl _
      · exact Nat.le_trans (ih h) (Nat.le_of_lt hlt)
  | case3 i k hparent hlt => exact Nat.le_of_eq (List.mem_singleton.mp h)

/-- The numbers of a chain descend. -/
theorem pairwise_outwards (scopes : Scopes) (i : Nat) : (scopes.outwards i).Pairwise (· > ·) := by
  fun_induction outwards scopes i with
  | case1 i _ => exact List.pairwise_singleton _ i
  | case2 i j _ hlt ih =>
      refine List.pairwise_cons.mpr ⟨fun k hk => ?_, ih⟩
      exact Nat.lt_of_le_of_lt (le_of_mem_outwards hk) hlt
  | case3 i j _ _ => exact List.pairwise_singleton _ i

/-- No member of a chain is met twice. -/
theorem nodup_outwards (scopes : Scopes) (i : Nat) : (scopes.outwards i).Nodup :=
  (pairwise_outwards scopes i).imp Nat.ne_of_gt

theorem self_mem_outwards (scopes : Scopes) (i : Nat) : i ∈ scopes.outwards i :=
  List.mem_of_mem_head? (head?_outwards scopes i)

/-- With a scope, the scope around it is on the chain, too. -/
theorem parent_mem_outwards {k : Nat} (h : j ∈ scopes.outwards i)
    (hparent : scopes.parent? j = some k) (hlt : k < j) : k ∈ scopes.outwards i := by
  fun_induction outwards scopes i with
  | case1 i hnone =>
      obtain rfl := List.mem_singleton.mp h
      simp [hnone] at hparent
  | case2 i m hm _ ih =>
      rcases List.mem_cons.mp h with rfl | h
      · obtain rfl := Option.some.inj (hm.symm.trans hparent)
        exact List.mem_cons_of_mem _ (self_mem_outwards scopes m)
      · exact List.mem_cons_of_mem _ (ih h)
  | case3 i m hm hnot =>
      obtain rfl := List.mem_singleton.mp h
      obtain rfl := Option.some.inj (hm.symm.trans hparent)
      exact absurd hlt hnot

/-- What is further out on a chain than a scope is on the chain of the scope around that one. -/
theorem exists_parent_of_lt {k : Nat} (hj : j ∈ scopes.outwards i) (hk : k ∈ scopes.outwards i)
    (hlt : k < j) : ∃ parent, scopes.parent? j = some parent ∧ k ∈ scopes.outwards parent := by
  fun_induction outwards scopes i with
  | case1 i _ =>
      obtain rfl := List.mem_singleton.mp hj
      obtain rfl := List.mem_singleton.mp hk
      exact absurd hlt (Nat.lt_irrefl _)
  | case2 i m hm hmi ih =>
      rcases List.mem_cons.mp hk with rfl | hrest
      · have hle : j ≤ k := by
          rcases List.mem_cons.mp hj with rfl | hj
          · exact Nat.le_refl _
          · exact Nat.le_trans (le_of_mem_outwards hj) (Nat.le_of_lt hmi)
        omega
      · rcases List.mem_cons.mp hj with rfl | hj
        · exact ⟨m, hm, hrest⟩
        · exact ih hj hrest
  | case3 i m _ _ =>
      obtain rfl := List.mem_singleton.mp hj
      obtain rfl := List.mem_singleton.mp hk
      exact absurd hlt (Nat.lt_irrefl _)

/-! ## Questions to a chain -/

theorem nearest?_eq_find? (scopes : Scopes) (p : Scope → Bool) (i : Nat) :
    scopes.nearest? p i = (scopes.outwards i).find? fun j => scopes[j]?.any p := by
  fun_induction outwards scopes i with
  | case1 i hparent =>
      unfold nearest?
      cases hscope : scopes[i]? with
      | none => simp [hscope]
      | some scope =>
          rw [parent?, hscope, Option.bind_some] at hparent
          simp [hscope, hparent]
  | case2 i j hparent hlt ih =>
      unfold nearest?
      obtain ⟨scope, hscope, hj⟩ := Option.bind_eq_some_iff.mp hparent
      by_cases hp : p scope
      · simp [hscope, hp]
      · simp [hscope, hp, hj, hlt, ih]
  | case3 i j hparent hlt =>
      unfold nearest?
      obtain ⟨scope, hscope, hj⟩ := Option.bind_eq_some_iff.mp hparent
      simp [hscope, hj, hlt]

/-- The first member of a chain that has a binding, with that binding. -/
def innermost? (chain : List Nat) (binding? : Nat → Option Binding) : Option (Nat × Binding) :=
  chain.findSome? fun j => (binding? j).map fun binding => (j, binding)

theorem innermost?_eq_some {chain : List Nat} {binding? : Nat → Option Binding}
    {binding : Binding} (h : innermost? chain binding? = some (j, binding)) :
    binding? j = some binding := by
  obtain ⟨k, -, hk⟩ := List.exists_of_findSome?_eq_some h
  obtain ⟨found, hfound, hpair⟩ := Option.map_eq_some_iff.mp hk
  obtain ⟨rfl, rfl⟩ := Prod.mk.inj hpair
  exact hfound

theorem holder?_eq (scopes : Scopes) (name : String) (i : Nat) :
    scopes.holder? name i =
      (innermost? (scopes.outwards i) (scopes.binding? name)).map Prod.fst := by
  rw [holder?, nearest?_eq_find?, innermost?]
  induction scopes.outwards i with
  | nil => rfl
  | cons j rest ih =>
      have hbinds : (scopes[j]?.any fun scope => scope.binds name) =
          (scopes.binding? name j).isSome := by
        cases hscope : scopes[j]? with
        | none => simp [binding?, hscope]
        | some scope => simp [binding?, hscope, Scope.binds]
      rw [List.find?_cons, List.findSome?_cons, hbinds]
      cases scopes.binding? name j with
      | none => exact ih
      | some binding => rfl

/-- The first member of a descending chain that has a binding is the largest one. -/
theorem innermost?_fst_eq_some_iff {chain : List Nat} (h : chain.Pairwise (· > ·))
    {binding? : Nat → Option Binding} :
    (innermost? chain binding?).map Prod.fst = some j ↔
      j ∈ chain ∧ (binding? j).isSome ∧ ∀ k ∈ chain, j < k → binding? k = none := by
  induction chain with
  | nil => simp [innermost?]
  | cons i rest ih =>
      obtain ⟨hbelow, hrest⟩ := List.pairwise_cons.mp h
      cases hbinding : binding? i with
      | none =>
          have hskip : innermost? (i :: rest) binding? = innermost? rest binding? := by
            simp [innermost?, hbinding]
          rw [hskip, ih hrest]
          constructor
          · rintro ⟨hj, hsome, hnone⟩
            exact ⟨List.mem_cons_of_mem _ hj, hsome,
              List.forall_mem_cons.mpr ⟨fun _ => hbinding, hnone⟩⟩
          · rintro ⟨hj, hsome, hnone⟩
            have hne : j ≠ i := by
              rintro rfl
              simp [hbinding] at hsome
            exact ⟨(List.mem_cons.mp hj).resolve_left hne, hsome,
              fun k hk => hnone k (List.mem_cons_of_mem _ hk)⟩
      | some binding =>
          have hfirst : innermost? (i :: rest) binding? = some (i, binding) := by
            simp [innermost?, hbinding]
          rw [hfirst, Option.map_some, Option.some_inj]
          constructor
          · rintro rfl
            refine ⟨List.mem_cons_self, by simp [hbinding], List.forall_mem_cons.mpr ⟨?_, ?_⟩⟩
            · exact fun hlt => absurd hlt (Nat.lt_irrefl _)
            · exact fun k hk hlt => absurd hlt (Nat.lt_asymm (hbelow k hk))
          · rintro ⟨hj, -, hnone⟩
            rcases List.mem_cons.mp hj with rfl | hj
            · rfl
            · simp [hnone i List.mem_cons_self (hbelow j hj)] at hbinding

/-- The scope that holds a name is the first one on the chain that binds it. -/
theorem holder?_eq_some_iff {name : String} : scopes.holder? name i = some j ↔
    j ∈ scopes.outwards i ∧ (scopes.binding? name j).isSome ∧
      ∀ k ∈ scopes.outwards i, j < k → scopes.binding? name k = none := by
  rw [holder?_eq]
  exact innermost?_fst_eq_some_iff (pairwise_outwards scopes i)

/-- Where a scope on the chain binds a name, it is held there or further inside. -/
theorem exists_holder_of_mem {name : String} (h : j ∈ scopes.outwards i)
    (hbound : (scopes.binding? name j).isSome) : ∃ k, scopes.holder? name i = some k ∧ j ≤ k := by
  have hsome : (scopes.holder? name i).isSome := by
    rw [holder?, nearest?_eq_find?, List.find?_isSome]
    refine ⟨j, h, ?_⟩
    obtain ⟨binding, hbinding⟩ := Option.isSome_iff_exists.mp hbound
    obtain ⟨scope, hscope, hfound⟩ := Option.bind_eq_some_iff.mp hbinding
    rw [hscope, Option.any_some, Scope.binds, ← Std.TreeMap.isSome_getElem?_eq_contains, hfound]
    rfl
  obtain ⟨k, hk⟩ := Option.isSome_iff_exists.mp hsome
  refine ⟨k, hk, Nat.le_of_not_lt fun hlt => ?_⟩
  rw [(holder?_eq_some_iff.mp hk).2.2 j h hlt] at hbound
  cases hbound

theorem lookup?_eq (scopes : Scopes) (name : String) (i : Nat) :
    scopes.lookup? name i =
      (innermost? (scopes.outwards i) (scopes.binding? name)).map (·.2.value) := by
  rw [lookup?, holder?_eq]
  cases hfound : innermost? (scopes.outwards i) (scopes.binding? name) with
  | none => rfl
  | some found => simp [innermost?_eq_some hfound]

theorem innermost?_congr {chain : List Nat} {binding? binding?' : Nat → Option Binding}
    (h : ∀ j ∈ chain, binding?' j = binding? j) :
    innermost? chain binding?' = innermost? chain binding? := by
  induction chain with
  | nil => rfl
  | cons i rest ih =>
      obtain ⟨hi, hrest⟩ := List.forall_mem_cons.mp h
      unfold innermost? at ih ⊢
      rw [List.findSome?_cons, List.findSome?_cons, hi, ih hrest]

section UpTo

variable {scopes' : Scopes} {name : String}
  (hplace : ∀ j ≤ i, scopes'.place? j = scopes.place? j)
  (hbinding : ∀ j ≤ i, scopes'.binding? name j = scopes.binding? name j)
include hplace hbinding

/-- What is seen of a name depends on no scope with a larger number. -/
theorem innermost?_congr_upTo :
    innermost? (scopes'.outwards i) (scopes'.binding? name) =
      innermost? (scopes.outwards i) (scopes.binding? name) := by
  rw [outwards_congr_upTo hplace]
  exact innermost?_congr fun j hj => hbinding j (le_of_mem_outwards hj)

theorem holder?_congr_upTo : scopes'.holder? name i = scopes.holder? name i := by
  rw [holder?_eq, holder?_eq, innermost?_congr_upTo hplace hbinding]

theorem lookup?_congr_upTo : scopes'.lookup? name i = scopes.lookup? name i := by
  rw [lookup?_eq, lookup?_eq, innermost?_congr_upTo hplace hbinding]

end UpTo

theorem assignee_eq (scopes : Scopes) (name : String) (i : Nat) :
    scopes.assignee name i =
      match innermost? (scopes.outwards i) (scopes.binding? name) with
      | none => .error .undeclared
      | some (j, binding) => if binding.isConst then .error .constant else .ok j := by
  rw [assignee, holder?_eq]
  cases hfound : innermost? (scopes.outwards i) (scopes.binding? name) with
  | none => rfl
  | some found => simp [innermost?_eq_some hfound]

/-- An assignment goes to the scope that holds the name. -/
theorem holder?_of_assignee {name : String} (h : scopes.assignee name i = .ok j) :
    scopes.holder? name i = some j ∧
      ∃ binding, scopes.binding? name j = some binding ∧ binding.isConst = false := by
  rw [assignee_eq] at h
  rw [holder?_eq]
  split at h
  · simp at h
  · next k binding hfound =>
      split at h
      · simp at h
      · next hconst =>
          obtain rfl := Except.ok.inj h
          refine ⟨by rw [hfound]; rfl, binding, innermost?_eq_some hfound, by simpa using hconst⟩

/-- The scope of the function is the first one on the chain that belongs to a function. -/
theorem functionScope_eq (scopes : Scopes) (i : Nat) :
    scopes.functionScope i =
      ((scopes.outwards i).find? fun j => (scopes.place? j).any Prod.snd).getD 0 := by
  have hsame : (fun j => (scopes[j]?).any fun scope => scope.isFunction) =
      fun j => (scopes.place? j).any Prod.snd := by
    funext j
    simp [place?, Option.any_map]
  rw [functionScope, nearest?_eq_find?, hsame]

/-- The scope of the function depends only on the tree, and there on no scope with a larger
number. -/
theorem functionScope_congr_upTo {scopes scopes' : Scopes} {i : Nat}
    (h : ∀ j ≤ i, scopes'.place? j = scopes.place? j) :
    scopes'.functionScope i = scopes.functionScope i := by
  have hfind : (scopes.outwards i).find? (fun j => (scopes'.place? j).any Prod.snd) =
      (scopes.outwards i).find? fun j => (scopes.place? j).any Prod.snd :=
    List.find?_congr fun j hj => by rw [h j (le_of_mem_outwards hj)]
  rw [functionScope_eq, functionScope_eq, outwards_congr_upTo h, hfind]

theorem functionScope_of_function {parent : Option Nat}
    (h : scopes.place? i = some (parent, true)) : scopes.functionScope i = i := by
  obtain ⟨rest, hrest⟩ := List.head?_eq_some_iff.mp (head?_outwards scopes i)
  rw [functionScope_eq, hrest, List.find?_cons_of_pos]
  · rfl
  · simp [h]

/-- A block belongs to the function of the scope around it. -/
theorem functionScope_of_block (h : scopes.place? i = some (some j, false)) (hlt : j < i) :
    scopes.functionScope i = scopes.functionScope j := by
  have hparent : scopes.parent? i = some j := by rw [parent?_eq, h]; rfl
  rw [functionScope_eq, functionScope_eq, outwards_some hparent hlt, List.find?_cons_of_neg]
  simp [h]

/-! ## Changes of bindings -/

theorem binding?_declare_eq (scopes : Scopes) (i : Nat) (name : String) (value : Value)
    (isConst : Bool) (x : String) (j : Nat) :
    (scopes.declare i name value isConst).binding? x j =
      if j = i ∧ x = name ∧ i < scopes.size then some ⟨value, isConst⟩
      else scopes.binding? x j := by
  rw [binding?, declare, Array.getElem?_modify]
  by_cases hj : i = j
  · subst hj
    by_cases hlt : i < scopes.size
    · by_cases hx : name = x
      · subst hx
        simp [hlt, Scope.declare]
      · simp [hlt, Scope.declare, binding?, Std.TreeMap.getElem?_insert, hx, Ne.symm hx]
    · simp [hlt, binding?]
  · simp [hj, Ne.symm hj, binding?]

theorem place?_modify (scopes : Scopes) (i j : Nat) {change : Scope → Scope}
    (hparent : ∀ scope, (change scope).parent = scope.parent)
    (hfunction : ∀ scope, (change scope).isFunction = scope.isFunction) :
    Scopes.place? (scopes.modify i change) j = scopes.place? j := by
  rw [place?, Array.getElem?_modify]
  split
  · cases hscope : scopes[j]? with
    | none => simp [place?, hscope]
    | some scope => simp [place?, hscope, hparent, hfunction]
  · rfl

theorem place?_declare (scopes : Scopes) (i : Nat) (name : String) (value : Value)
    (isConst : Bool) (j : Nat) :
    (scopes.declare i name value isConst).place? j = scopes.place? j :=
  place?_modify scopes i j (fun _ => rfl) (fun _ => rfl)

/-- The innermost scope of a chain is asked first. -/
theorem lookup?_declare (h : i < scopes.size) (name : String) (value : Value) (isConst : Bool)
    (x : String) :
    (scopes.declare i name value isConst).lookup? x i =
      if x = name then some value else scopes.lookup? x i := by
  have hchain : (scopes.declare i name value isConst).outwards i = scopes.outwards i :=
    outwards_congr (place?_declare scopes i name value isConst) i
  rw [lookup?_eq, lookup?_eq, hchain]
  by_cases hx : x = name
  · obtain ⟨rest, hrest⟩ := List.head?_eq_some_iff.mp (head?_outwards scopes i)
    rw [hrest, if_pos hx]
    simp [innermost?, binding?_declare_eq, hx, h]
  · have hsame : (scopes.declare i name value isConst).binding? x = scopes.binding? x := by
      funext j
      rw [binding?_declare_eq]
      exact if_neg fun hj => hx hj.2.1
    rw [hsame, if_neg hx]

theorem lt_of_binding? {name : String} {binding : Binding}
    (h : scopes.binding? name i = some binding) : i < scopes.size := by
  obtain ⟨scope, hscope, -⟩ := Option.bind_eq_some_iff.mp h
  exact (Array.getElem?_eq_some_iff.mp hscope).1

theorem binding?_push (scopes : Scopes) (parent : Option Nat) (isFunction : Bool) (x : String)
    (j : Nat) :
    Scopes.binding? (scopes.push (.blank parent isFunction)) x j = scopes.binding? x j := by
  rw [binding?, binding?, Array.getElem?_push]
  split
  · next hj => simp [hj, Scope.blank]
  · rfl

theorem place?_push (scopes : Scopes) (parent : Option Nat) (isFunction : Bool) (j : Nat) :
    Scopes.place? (scopes.push (.blank parent isFunction)) j =
      if j = scopes.size then some (parent, isFunction) else scopes.place? j := by
  rw [place?, Array.getElem?_push]
  split
  · rfl
  · rfl

theorem binding?_clear (scopes : Scopes) (i : Nat) (x : String) (j : Nat) :
    Scopes.binding? (scopes.modify i fun scope => { scope with bindings := ∅ }) x j =
      if j = i then none else scopes.binding? x j := by
  rw [binding?, Array.getElem?_modify]
  by_cases hj : i = j
  · subst hj
    cases hscope : scopes[i]? with
    | none => simp
    | some scope => simp
  · simp [hj, Ne.symm hj, binding?]

theorem place?_clear (scopes : Scopes) (i j : Nat) :
    Scopes.place? (scopes.modify i fun scope => { scope with bindings := ∅ }) j =
      scopes.place? j :=
  place?_modify scopes i j (fun _ => rfl) (fun _ => rfl)

theorem place?_clearChain (scopes : Scopes) (i j : Nat) :
    (scopes.clearChain i).place? j = scopes.place? j := by
  fun_induction clearChain scopes i with
  | case1 scopes i cleared hparent => exact place?_clear scopes i j
  | case2 scopes i cleared k hparent hlt ih => exact ih.trans (place?_clear scopes i j)
  | case3 scopes i cleared k hparent hlt => exact place?_clear scopes i j

theorem binding?_clearChain (scopes : Scopes) (i : Nat) (x : String) (j : Nat) :
    (scopes.clearChain i).binding? x j =
      if j ∈ scopes.outwards i then none else scopes.binding? x j := by
  fun_induction clearChain scopes i with
  | case1 scopes i cleared hparent =>
      rw [outwards_none hparent]
      simpa using binding?_clear scopes i x j
  | case2 scopes i cleared k hparent hlt ih =>
      have hchain : outwards cleared k = scopes.outwards k :=
        outwards_congr (place?_clear scopes i) k
      rw [ih, hchain, binding?_clear, outwards_some hparent hlt]
      by_cases hk : j ∈ scopes.outwards k
      · simp [hk]
      · simp [hk]
  | case3 scopes i cleared k hparent hlt =>
      rw [outwards, hparent]
      simpa [hlt] using binding?_clear scopes i x j

/-! ## Trees of scopes -/

/-- Scope number 0 is the root, and every other scope lies in one with a smaller number. -/
structure Rooted (scopes : Scopes) : Prop where
  root : scopes.place? 0 = some (none, true)
  inner : ∀ i place, scopes.place? i = some place → i ≠ 0 → ∃ j < i, place.1 = some j

namespace Rooted

theorem of_place? {scopes' : Scopes} (h : scopes.Rooted)
    (hplace : ∀ j, scopes'.place? j = scopes.place? j) : scopes'.Rooted :=
  ⟨(hplace 0).trans h.root, fun i place hi => h.inner i place ((hplace i).symm.trans hi)⟩

theorem size_pos (h : scopes.Rooted) : 0 < scopes.size := by
  obtain ⟨scope, hscope, -⟩ := Option.map_eq_some_iff.mp h.root
  exact (Array.getElem?_eq_some_iff.mp hscope).1

theorem parent?_zero (h : scopes.Rooted) : scopes.parent? 0 = none := by
  rw [parent?_eq, h.root]
  rfl

theorem parent?_lt (h : scopes.Rooted) (hparent : scopes.parent? i = some j) : j < i := by
  rw [parent?_eq] at hparent
  obtain ⟨place, hplace, hj⟩ := Option.bind_eq_some_iff.mp hparent
  have hi : i ≠ 0 := by
    rintro rfl
    rw [h.root] at hplace
    obtain rfl := Option.some.inj hplace
    simp at hj
  obtain ⟨k, hk, hparent⟩ := h.inner i place hplace hi
  have hjk : j = k := Option.some.inj (hj.symm.trans hparent)
  omega

theorem parent?_isSome (h : scopes.Rooted) (hi : i < scopes.size) (hpos : i ≠ 0) :
    ∃ j, scopes.parent? i = some j := by
  obtain ⟨j, -, hparent⟩ := h.inner i (scopes[i].parent, scopes[i].isFunction)
    (by simp [place?, hi]) hpos
  exact ⟨j, by rw [parent?, Array.getElem?_eq_getElem hi]; exact hparent⟩

/-- A scope in a scope that is there. -/
theorem push (h : scopes.Rooted) {parent : Nat} (hparent : parent < scopes.size)
    (isFunction : Bool) :
    Scopes.Rooted (scopes.push (.blank (some parent) isFunction)) := by
  have hpos := h.size_pos
  constructor
  · rw [place?_push, if_neg (by omega)]
    exact h.root
  · intro i place hi hne
    rw [place?_push] at hi
    split at hi
    · next hsize =>
        obtain rfl := Option.some.inj hi
        exact ⟨parent, by omega, rfl⟩
    · exact h.inner i place hi hne

/-- A scope that is there lies in the root. -/
theorem getLast?_outwards (h : scopes.Rooted) (hi : i < scopes.size) :
    (scopes.outwards i).getLast? = some 0 := by
  induction i using Nat.strongRecOn with
  | ind i ih =>
      by_cases hzero : i = 0
      · subst hzero
        rw [outwards_none h.parent?_zero]
        rfl
      · obtain ⟨j, hj⟩ := h.parent?_isSome hi hzero
        have hlt := h.parent?_lt hj
        rw [outwards_some hj hlt, List.getLast?_cons, ih j hlt (Nat.lt_trans hlt hi)]
        rfl

/-- The root ends every search for the scope of a function. -/
theorem find?_functionScope (h : scopes.Rooted) (hi : i < scopes.size) :
    (scopes.outwards i).find? (fun j => (scopes.place? j).any Prod.snd) =
      some (scopes.functionScope i) := by
  have hroot : 0 ∈ scopes.outwards i := List.mem_of_getLast? (h.getLast?_outwards hi)
  have hfound : ((scopes.outwards i).find? fun j => (scopes.place? j).any Prod.snd).isSome :=
    List.find?_isSome.mpr ⟨0, hroot, by simp [h.root]⟩
  obtain ⟨j, hj⟩ := Option.isSome_iff_exists.mp hfound
  rw [functionScope_eq, hj]
  rfl

theorem functionScope_mem_outwards (h : scopes.Rooted) (hi : i < scopes.size) :
    scopes.functionScope i ∈ scopes.outwards i :=
  List.mem_of_find?_eq_some (h.find?_functionScope hi)

theorem functionScope_lt (h : scopes.Rooted) (hi : i < scopes.size) :
    scopes.functionScope i < scopes.size :=
  Nat.lt_of_le_of_lt (le_of_mem_outwards (h.functionScope_mem_outwards hi)) hi

end Rooted

end Scopes

/-! ## Environments -/

namespace Environment

variable {env : Environment}

theorem scopes_leaveBlock (env : Environment) : env.leaveBlock.scopes = env.scopes := by
  unfold leaveBlock
  split
  · rfl
  · unfold moveTo
    split
    · rfl
    · rfl

/-- The scopes form a tree, and the frames are in it. -/
structure Valid (env : Environment) : Prop where
  rooted : env.scopes.Rooted
  frames : ∀ frame ∈ env.frames, frame.scope < env.scopes.size

namespace Valid

theorem current_lt (h : env.Valid) : env.current < env.scopes.size := by
  unfold current
  split
  · exact h.rooted.size_pos
  · next frame rest hframes => exact h.frames frame (by rw [hframes]; exact List.mem_cons_self)

/-- Changes of bindings in a tree that stays as it is. -/
theorem of_place? (h : env.Valid) {scopes : Scopes}
    (hplace : ∀ j, scopes.place? j = env.scopes.place? j) : Valid { env with scopes } := by
  refine ⟨h.rooted.of_place? hplace, fun frame hframe => ?_⟩
  rw [← Scopes.isSome_place?, hplace]
  exact Scopes.isSome_place?.mpr (h.frames frame hframe)

theorem declareIn (h : env.Valid) (i : Nat) (name : String) (value : Value) (isConst : Bool) :
    (env.declareIn i name value isConst).Valid :=
  h.of_place? (Scopes.place?_declare _ i name value isConst)

/-- A new scope in one that is there, in which the first of the frames then is. -/
theorem push (h : env.Valid) {parent : Nat} (hparent : parent < env.scopes.size)
    (isFunction : Bool) {frame : Frame} {rest : List Frame}
    (hframe : frame.scope = env.scopes.size) (hrest : ∀ other ∈ rest, other ∈ env.frames) :
    Valid ⟨env.scopes.push (.blank (some parent) isFunction), frame :: rest⟩ := by
  refine ⟨h.rooted.push hparent isFunction, fun other hother => ?_⟩
  rw [Array.size_push]
  rcases List.mem_cons.mp hother with rfl | hother
  · omega
  · have := h.frames other (hrest other hother)
    omega

theorem enterBlock (h : env.Valid) : env.enterBlock.Valid := by
  obtain ⟨scopes, _ | ⟨frame, rest⟩⟩ := env
  · exact h
  · exact h.push (h.frames frame List.mem_cons_self) false rfl
      fun _ hother => List.mem_cons_of_mem _ hother

theorem leaveBlock (h : env.Valid) : env.leaveBlock.Valid := by
  unfold Environment.leaveBlock
  cases hparent : env.scopes.parent? env.current with
  | none => exact h
  | some i =>
      have hi := Nat.lt_trans (h.rooted.parent?_lt hparent) h.current_lt
      obtain ⟨scopes, _ | ⟨frame, rest⟩⟩ := env
      · exact h
      · refine ⟨h.rooted, fun other hother => ?_⟩
        rcases List.mem_cons.mp hother with rfl | hother
        · exact hi
        · exact h.frames other (List.mem_cons_of_mem _ hother)

theorem enterCall (h : env.Valid) (name : String) {parent : Nat}
    (hparent : parent < env.scopes.size) : (env.enterCall name parent).Valid :=
  h.push hparent true rfl fun _ hother => hother

theorem leaveCall (h : env.Valid) : env.leaveCall.Valid :=
  ⟨h.rooted, fun frame hframe => h.frames frame (List.mem_of_mem_tail hframe)⟩

/-- One change after the other, for the members of a list. -/
theorem foldl {α : Type} {change : Environment → α → Environment}
    (hchange : ∀ env x, env.Valid → (change env x).Valid) (xs : List α) (h : env.Valid) :
    (xs.foldl change env).Valid := by
  induction xs generalizing env with
  | nil => exact h
  | cons x rest ih => exact ih (hchange env x h)

end Valid

theorem valid_initial : Environment.initial.Valid := by
  refine ⟨⟨rfl, fun i place hi hne => ?_⟩, by simp [initial]⟩
  obtain ⟨k, rfl⟩ := Nat.exists_eq_succ_of_ne_zero hne
  simp [initial, Scopes.root, Scopes.place?] at hi

end Environment

end StepTrace
