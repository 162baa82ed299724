import PulseEngine.Library.Descent
import PulseEngine.Prefab.Loads

/-!
# Bases of prefabs

`resolve_prefab_bases` links a definition to the first definition that has the name it extends. A name
that no definition has may be the one of a prefab that was loaded before, so it is left alone here, and
`build_prefab_library` looks it up in the world when it links the entities.
-/

namespace PulseEngine.Prefab

open Datalist Library

section Statements

variable {δ : Type} (doc : Document δ)

def extendsName (d : Definition) : Option Text :=
  getString doc (some d.node) (some "extends".toList) none

def Misnamed (d : Definition) : Prop :=
  (resolve doc (some d.node) (some "extends".toList)).isSome ∧
    (extendsName doc d = none ∨ extendsName doc d = some [])

def extendsIndex (library : PrefabLibrary) (d : Definition) : Option ℕ :=
  (extendsName doc d).bind fun name => library.definitions.findIdx? fun e => e.name = name

def Extends (library : PrefabLibrary) (i j : ℕ) : Prop :=
  ∃ d, library.At i d ∧ extendsIndex doc library d = some j

def PrefabLibrary.baseOf (library : PrefabLibrary) (i : ℕ) : Option ℕ :=
  library.definitions[i]?.bind Definition.base

end Statements

variable {δ : Type} {doc : Document δ} {library library' : PrefabLibrary} {i j index : ℕ}
  {d : Definition}

/-- The first definitions of `library'` have the bases that are written. -/
structure Based (doc : Document δ) (library library' : PrefabLibrary) (count : ℕ) : Prop where
  names : library'.definitions.map Definition.name = library.definitions.map Definition.name
  bases : ∀ i d, library.At i d → library'.At i
    (if i < count then { d with base := extendsIndex doc library d } else d)

lemma extendsName_eq_none (h : (resolve doc (some d.node) (some "extends".toList)).isNone = true) :
    extendsName doc d = none := by
  unfold extendsName getString
  rw [Option.isNone_iff_eq_none.mp h]

lemma findIdx?_of_names (names : library'.definitions.map Definition.name =
    library.definitions.map Definition.name) (name : Text) :
    library'.definitions.findIdx? (fun e => decide (e.name = name)) =
      library.definitions.findIdx? fun e => decide (e.name = name) := by
  have by_names : ∀ ds : List Definition, ds.findIdx? (fun e => decide (e.name = name)) =
      (ds.map Definition.name).findIdx? (fun n => decide (n = name)) := by
    intro ds
    rw [List.findIdx?_map]
    rfl
  rw [by_names, by_names, names]

lemma resolveBase_spec (fresh : d.base = none) (based : Based doc library library' index)
    (hd : library.At index d) : (Misnamed doc d → Fails (resolveBase doc library' index)) ∧
      (¬ Misnamed doc d → ∃ library'', Returns (resolveBase doc library' index) library'' ∧
        Based doc library library'' (index + 1)) := by
  have hd' : library'.definitions[index]? = some d := by
    have := based.bases index d hd
    rwa [if_neg (Nat.lt_irrefl index)] at this
  have unchanged : extendsIndex doc library d = none → Based doc library library' (index + 1) := by
    intro none
    refine ⟨based.names, fun i e he => ?_⟩
    have kept := based.bases i e he
    rcases Nat.lt_trichotomy i index with lt | rfl | gt
    · rw [if_pos lt] at kept
      rwa [if_pos (by omega)]
    · cases he.unique hd
      rw [if_pos (Nat.lt_succ_self i), none, ← fresh]
      exact hd'
    · rw [if_neg (by omega)] at kept
      rwa [if_neg (by omega)]
  unfold resolveBase
  rw [hd']
  dsimp only
  split
  · rename_i hnone
    have name := extendsName_eq_none (d := d) hnone
    refine ⟨fun h => ?_, fun _ => ⟨library', returns_pure.mpr rfl, unchanged ?_⟩⟩
    · have hsome := h.1
      rw [Option.isNone_iff_eq_none.mp hnone] at hsome
      cases hsome
    · rw [extendsIndex, name]
      rfl
  · rename_i hnone
    have hsome : (resolve doc (some d.node) (some "extends".toList)).isSome := by
      rwa [Bool.not_eq_true, Option.isNone_eq_false_iff] at hnone
    cases hname : extendsName doc d with
    | none =>
      unfold extendsName at hname
      rw [hname]
      exact ⟨fun _ => ⟨_, rfl⟩, fun h => absurd ⟨hsome, Or.inl hname⟩ h⟩
    | some name =>
      have hindex : extendsIndex doc library d =
          library.definitions.findIdx? fun e => e.name = name := by
        rw [extendsIndex, hname]
        rfl
      have hname' := hname
      unfold extendsName at hname'
      rw [hname']
      dsimp only
      split
      · rename_i empty
        refine ⟨fun _ => ⟨_, rfl⟩, fun h => absurd ⟨hsome, Or.inr ?_⟩ h⟩
        rw [hname, empty]
      · rename_i nonempty
        refine ⟨fun h => ?_, fun _ => ?_⟩
        · rcases h.2 with h | h
          · cases hname.symm.trans h
          · exact absurd (Option.some.inj (hname.symm.trans h)) nonempty
        · rw [findIdx?_of_names based.names, ← hindex]
          cases hbase : extendsIndex doc library d with
          | none => exact ⟨library', returns_pure.mpr rfl, unchanged hbase⟩
          | some base =>
            refine ⟨_, returns_pure.mpr rfl, ?_, fun i e he => ?_⟩
            · rw [← based.names]
              refine List.ext_getElem? fun i => ?_
              rw [List.getElem?_map, List.getElem?_map, PrefabLibrary.modify, List.getElem?_modify]
              cases library'.definitions[i]? with
              | none => rfl
              | some e => by_cases h : index = i <;> simp [h]
            · have kept := based.bases i e he
              rcases Nat.lt_trichotomy i index with lt | rfl | gt
              · rw [if_pos lt] at kept
                rw [if_pos (by omega)]
                exact PrefabLibrary.at_modify_ne kept (by omega)
              · cases he.unique hd
                rw [if_pos (Nat.lt_succ_self i), hbase]
                exact PrefabLibrary.at_modify_self hd'
              · rw [if_neg (by omega)] at kept ⊢
                exact PrefabLibrary.at_modify_ne kept (by omega)

lemma resolveBases_spec (fresh : ∀ d ∈ library.definitions, d.base = none) : ∀ {count : ℕ},
    count ≤ library.definitions.length →
      ((∃ i < count, ∃ d, library.At i d ∧ Misnamed doc d) →
        Fails ((List.range count).foldlM (resolveBase doc) library)) ∧
      ((∀ i < count, ∀ d, library.At i d → ¬ Misnamed doc d) →
        ∃ library', Returns ((List.range count).foldlM (resolveBase doc) library) library' ∧
          Based doc library library' count) := by
  intro count
  induction count with
  | zero =>
    intro _
    refine ⟨fun ⟨i, hi, _⟩ => absurd hi (Nat.not_lt_zero i), fun _ => ⟨library, returns_pure.mpr rfl, rfl,
      fun i d hd => ?_⟩⟩
    rwa [if_neg (Nat.not_lt_zero i)]
  | succ count ih =>
    intro le
    obtain ⟨fails, returns⟩ := ih (by omega)
    obtain ⟨d, hd⟩ := PrefabLibrary.exists_at (show count < library.definitions.length by omega)
    have freshd := fresh d (List.mem_of_getElem? hd)
    have one : ∀ library', (List.foldlM (resolveBase doc) library' [count]) =
        resolveBase doc library' count := by
      intro library'
      rw [List.foldlM_cons]
      exact bind_pure _
    rw [List.range_succ, List.foldlM_append]
    refine ⟨fun h => fails_bind.mpr ?_, fun h => ?_⟩
    · by_cases before : ∃ i < count, ∃ d, library.At i d ∧ Misnamed doc d
      · exact Or.inl (fails before)
      · obtain ⟨i, hi, e, he, misnamed⟩ := h
        obtain rfl : i = count := by
          by_contra hne
          exact before ⟨i, by omega, e, he, misnamed⟩
        cases he.unique hd
        obtain ⟨library', hreturns, based⟩ := returns fun i hi e he hm => before ⟨i, hi, e, he, hm⟩
        refine Or.inr ⟨library', hreturns, ?_⟩
        rw [one]
        exact (resolveBase_spec freshd based hd).1 misnamed
    · obtain ⟨library', hreturns, based⟩ := returns fun i hi => h i (by omega)
      obtain ⟨library'', hreturns', based'⟩ :=
        (resolveBase_spec freshd based hd).2 (h count (by omega) d hd)
      refine ⟨library'', returns_bind.mpr ⟨library', hreturns, ?_⟩, based'⟩
      rw [one]
      exact hreturns'

variable {count : ℕ}

lemma extendsIndex_lt (h : extendsIndex doc library d = some j) : j < library.definitions.length := by
  obtain ⟨name, -, h⟩ := Option.bind_eq_some_iff.mp h
  exact (List.findIdx?_eq_some_iff_getElem.mp h).1

lemma Based.length_eq (based : Based doc library library' count) :
    library'.definitions.length = library.definitions.length := by
  have := congrArg List.length based.names
  rwa [List.length_map, List.length_map] at this

lemma Based.leadsTo (based : Based doc library library' library.definitions.length) :
    LeadsTo library'.baseOf i j ↔ Extends doc library i j := by
  rcases Nat.lt_or_ge i library.definitions.length with lt | ge
  · obtain ⟨d, hd⟩ := PrefabLibrary.exists_at lt
    have hd' := based.bases i d hd
    rw [if_pos lt] at hd'
    unfold LeadsTo PrefabLibrary.baseOf
    rw [hd', Option.bind_some]
    refine ⟨fun h => ⟨d, hd, h⟩, ?_⟩
    rintro ⟨e, he, h⟩
    cases hd.unique he
    exact h
  · refine iff_of_false (fun h => ?_) fun ⟨d, hd, _⟩ => absurd hd.lt (Nat.not_lt.mpr ge)
    unfold LeadsTo PrefabLibrary.baseOf at h
    rw [List.getElem?_eq_none (by rw [based.length_eq]; exact ge)] at h
    cases h

lemma basesEnd_eq (library : PrefabLibrary) : ∀ (steps : ℕ) (at_ : Option ℕ),
    basesEnd library steps at_ = endsWithin library.baseOf steps at_ := by
  intro steps
  induction steps with
  | zero => exact fun at_ => by cases at_ <;> rfl
  | succ steps ih =>
    intro at_
    cases at_ with
    | none => rfl
    | some i => exact ih _

lemma Based.ends_iff (based : Based doc library library' library.definitions.length) :
    (∀ i < library'.definitions.length,
        basesEnd library' library'.definitions.length (some i) = true) ↔
      ¬ ∃ i, Relation.TransGen (Extends doc library) i i := by
  have same : LeadsTo library'.baseOf = Extends doc library := by
    funext i j
    exact propext based.leadsTo
  have walks := @endsWithin_iff _ library'.baseOf _ (Finset.range library'.definitions.length)
    (fun i _ j h => ?_) (fun i j h => ?_)
  · rw [same, Finset.card_range] at walks
    rw [← walks]
    refine ⟨fun h i hi => ?_, fun h i hi => ?_⟩
    · rw [← basesEnd_eq]
      exact h i (Finset.mem_range.mp hi)
    · rw [basesEnd_eq]
      exact h i (Finset.mem_range.mpr hi)
  · obtain ⟨d, -, h⟩ := based.leadsTo.mp h
    rw [Finset.mem_range, based.length_eq]
    exact extendsIndex_lt h
  · obtain ⟨d, hd, -⟩ := based.leadsTo.mp h
    rw [Finset.mem_range, based.length_eq]
    exact hd.lt

lemma checkBases_spec {resolved : PrefabLibrary} (h : Returns
      ((List.range library.definitions.length).foldlM (resolveBase doc) library) resolved) :
    ((∀ i < resolved.definitions.length,
        basesEnd resolved resolved.definitions.length (some i) = true) →
      Returns (resolvePrefabBases doc library) resolved) ∧
    ((¬ ∀ i < resolved.definitions.length,
        basesEnd resolved resolved.definitions.length (some i) = true) →
      Fails (resolvePrefabBases doc library)) := by
  constructor
  · intro ends
    refine returns_bind.mpr ⟨resolved, h, ?_⟩
    split
    · exact returns_pure.mpr rfl
    · rename_i i hsome
      have bad := List.find?_some hsome
      have good := ends i (List.mem_range.mp (List.mem_of_find?_eq_some hsome))
      simp [good] at bad
  · intro circle
    refine fails_bind.mpr (Or.inr ⟨resolved, h, ?_⟩)
    split
    · rename_i hnone
      refine absurd (fun i hi => ?_) circle
      simpa using List.find?_eq_none.mp hnone i (List.mem_range.mpr hi)
    · exact ⟨_, rfl⟩

section Links

variable {ω γ : Type} (flecs : Flecs δ ω γ)

lemma Based.linkBase_fails_iff (based : Based doc library library' library.definitions.length)
    (hd : d ∈ library'.definitions) (world : ω) : Fails (linkBase flecs doc library' world d) ↔
      ∃ name, extendsName doc d = some name ∧ (∀ e ∈ library'.definitions, e.name ≠ name) ∧
        flecs.lookup world name = 0 := by
  obtain ⟨i, hi⟩ := List.mem_iff_getElem?.mp hd
  have lt : i < library.definitions.length := by
    rw [← based.length_eq]
    exact (List.getElem?_eq_some_iff.mp hi).1
  obtain ⟨d₀, hd₀⟩ := PrefabLibrary.exists_at lt
  have hbased := based.bases i d₀ hd₀
  rw [if_pos lt] at hbased
  cases hi.symm.trans hbased
  have name : extendsName doc { d₀ with base := extendsIndex doc library d₀ } = extendsName doc d₀ := rfl
  rw [name]
  unfold linkBase
  cases hbase : extendsIndex doc library d₀ with
  | some base =>
    refine iff_of_false (Returns.not_fails (returns_pure.mpr rfl)) ?_
    rintro ⟨name, hname, unknown, -⟩
    rw [extendsIndex, hname, Option.bind_some, ← findIdx?_of_names based.names] at hbase
    obtain ⟨lt, hit, -⟩ := List.findIdx?_eq_some_iff_getElem.mp hbase
    exact unknown _ (List.getElem_mem lt) (of_decide_eq_true hit)
  | none =>
    have hname : getString doc (some d₀.node) (some "extends".toList) none = extendsName doc d₀ := rfl
    dsimp only
    rw [hname]
    cases hext : extendsName doc d₀ with
    | none => exact iff_of_false (Returns.not_fails (returns_pure.mpr rfl)) (by rintro ⟨_, h, _⟩; cases h)
    | some name =>
      rw [extendsIndex, hext, Option.bind_some, ← findIdx?_of_names based.names] at hbase
      have unknown : ∀ e ∈ library'.definitions, e.name ≠ name := by
        intro e he
        simpa using List.findIdx?_eq_none_iff.mp hbase e he
      have target : resolvePrefabTarget flecs world library' name = flecs.lookup world name := by
        unfold resolvePrefabTarget
        rw [List.find?_eq_none.mpr fun e he => by simpa using unknown e he]
      dsimp only
      rw [target]
      split
      · rename_i zero
        exact iff_of_true ⟨_, rfl⟩ ⟨name, rfl, unknown, zero⟩
      · rename_i nonzero
        refine iff_of_false (Returns.not_fails (returns_pure.mpr rfl)) ?_
        rintro ⟨name', h, -, zero⟩
        cases h
        exact nonzero zero

/-- **Bases.** For every library of definitions without bases, `resolve_prefab_bases` ends. It rejects the
library if and only if some definition has an `extends` that is no name or the chain of written bases goes
round a circle. Otherwise the bases that it records are the ones that are written and every chain of them
is finite, and a definition that extends a name no definition has is rejected when the entities are
linked, if and only if the world has no entity of the name either. -/
theorem resolvePrefabBases_spec (library : PrefabLibrary)
    (fresh : ∀ d ∈ library.definitions, d.base = none) :
    Ends (resolvePrefabBases doc library) ∧
      (Fails (resolvePrefabBases doc library) ↔
        (∃ d ∈ library.definitions, Misnamed doc d) ∨
          ∃ i, Relation.TransGen (Extends doc library) i i) ∧
      ∀ library', Returns (resolvePrefabBases doc library) library' →
        (∀ i j, library'.baseOf i = some j ↔ Extends doc library i j) ∧
          WellFounded (fun j i => library'.baseOf i = some j) ∧
          ∀ world, ∀ d ∈ library'.definitions, (Fails (linkBase flecs doc library' world d) ↔
            ∃ name, extendsName doc d = some name ∧ (∀ e ∈ library'.definitions, e.name ≠ name) ∧
              flecs.lookup world name = 0) := by
  obtain ⟨fails, returns⟩ := @resolveBases_spec _ doc library fresh _ le_rfl
  by_cases misnamed : ∃ d ∈ library.definitions, Misnamed doc d
  · obtain ⟨d, hd, hm⟩ := misnamed
    obtain ⟨i, hi⟩ := List.mem_iff_getElem?.mp hd
    have failed : Fails (resolvePrefabBases doc library) :=
      fails_bind.mpr (Or.inl (fails ⟨i, (List.getElem?_eq_some_iff.mp hi).1, d, hi, hm⟩))
    exact ⟨failed.ends, iff_of_true failed (Or.inl ⟨d, hd, hm⟩),
      fun library' h => absurd failed h.not_fails⟩
  · obtain ⟨resolved, hresolved, based⟩ := returns fun i _ d hd hm =>
      misnamed ⟨d, List.mem_of_getElem? hd, hm⟩
    have circles := based.ends_iff
    obtain ⟨passes, rejects⟩ := checkBases_spec hresolved
    rw [or_iff_right misnamed]
    by_cases ends : ∀ i < resolved.definitions.length,
        basesEnd resolved resolved.definitions.length (some i) = true
    · have returned := passes ends
      refine ⟨returned.ends, iff_of_false returned.not_fails (circles.mp ends), fun library' h => ?_⟩
      cases h.unique returned
      refine ⟨fun i j => based.leadsTo, ⟨fun i => ?_⟩, fun world d hd =>
        based.linkBase_fails_iff flecs hd world⟩
      rcases Nat.lt_or_ge i resolved.definitions.length with lt | ge
      · have walk := ends i lt
        rw [basesEnd_eq] at walk
        exact acc_of_endsWithin walk
      · refine Acc.intro i fun j hj => ?_
        unfold PrefabLibrary.baseOf at hj
        rw [List.getElem?_eq_none ge] at hj
        cases hj
    · have failed := rejects ends
      exact ⟨failed.ends, iff_of_true failed (not_not.mp (mt circles.mpr ends)),
        fun library' h => absurd failed h.not_fails⟩

end Links

def outsideBase : Document Int
  | 0 => { Node.empty .map with entries := [("extends".toList, 1)] }
  | 1 => { Node.empty .string with s := "vehicle".toList }
  | _ => Node.empty .nil

def carLibrary : PrefabLibrary := ⟨[.ofNode "car".toList 0], some 0, false⟩

lemma returns_carLibrary : Returns (resolvePrefabBases outsideBase carLibrary) carLibrary := rfl

/-- The world does not know it either. -/
theorem resolvePrefabBases_spec_car :
    Fails (linkBase plainFlecs outsideBase carLibrary 0 (.ofNode "car".toList 0)) := by
  obtain ⟨-, -, links⟩ := @resolvePrefabBases_spec _ outsideBase _ _ plainFlecs carLibrary (by decide)
  obtain ⟨-, -, fails⟩ := links carLibrary returns_carLibrary
  exact (fails 0 _ List.mem_cons_self).mpr ⟨"vehicle".toList, rfl, by decide, rfl⟩

/-- `resolve_prefab_bases` does not reject what extends an unknown prefab. -/
theorem not_rejects_unknown : ¬ ∀ (doc : Document Int) (library : PrefabLibrary) (known : Text → Prop),
    (∀ d ∈ library.definitions, d.base = none) →
      (Fails (resolvePrefabBases doc library) ↔
        (∃ i, Relation.TransGen (Extends doc library) i i) ∨
          ∃ d ∈ library.definitions, ∃ name, extendsName doc d = some name ∧
            (∀ e ∈ library.definitions, e.name ≠ name) ∧ ¬ known name) := by
  intro law
  refine returns_carLibrary.not_fails ((law outsideBase carLibrary (fun _ => False) (by decide)).mpr ?_)
  exact Or.inr ⟨_, List.mem_cons_self, "vehicle".toList, rfl, by decide, id⟩

def Unbased (library : PrefabLibrary) : Prop := ∀ d ∈ library.definitions, d.base = none

lemma Unbased.push (h : Unbased library) (fresh : d.base = none) : Unbased (library.push d) := by
  intro e he
  rcases List.mem_append.mp he with he | he
  · exact h e he
  · cases List.mem_singleton.mp he
    exact fresh

lemma Unbased.modify (h : Unbased library) {f : Definition → Definition}
    (kept : ∀ d, (f d).base = d.base) (i : ℕ) : Unbased (library.modify i f) := by
  intro e he
  obtain ⟨j, hj⟩ := List.mem_iff_getElem?.mp he
  obtain ⟨d, hd, rfl⟩ := PrefabLibrary.at_modify.mp hj
  split
  · rw [kept]
    exact h d (List.mem_of_getElem? hd)
  · exact h d (List.mem_of_getElem? hd)

lemma Unbased.buildPrefabParent : ∀ {fuel : ℕ} {library library' : PrefabLibrary} {index : ℕ},
    Unbased library → Returns (buildPrefabParent doc fuel library index) library' →
      Unbased library' := by
  intro fuel
  induction fuel with
  | zero => exact fun _ h => nomatch h
  | succ fuel ih =>
    intro library library' index unbased h
    unfold Prefab.buildPrefabParent at h
    split at h
    · cases h
    · split at h
      · cases returns_pure.mp h
        exact unbased
      · have expanded := unbased.modify (f := fun d => { d with expanded := true }) (fun _ => rfl) index
        dsimp only at h
        split at h
        · cases returns_pure.mp h
          exact expanded
        · split at h
          · exact absurd h not_returns_throw
          · refine returns_foldlM (I := Unbased) h expanded fun child _ l l' unbased hchild => ?_
            unfold buildChild at hchild
            split at hchild
            · exact absurd hchild not_returns_throw
            · obtain ⟨_, -, hchild⟩ := returns_bind.mp hchild
              split at hchild
              · split at hchild
                · exact absurd hchild not_returns_throw
                · exact ih (unbased.modify (f := fun d => { d with parent := some index }) (fun _ => rfl) _)
                    hchild
              · exact ih (unbased.push rfl) hchild

lemma Unbased.collectEntry {entry : Text × NodeId} (unbased : Unbased library)
    (h : Returns (collectEntry doc library entry) library') : Unbased library' := by
  unfold Prefab.collectEntry at h
  dsimp only at h
  split at h
  · exact absurd h not_returns_throw
  · split at h
    · exact absurd h not_returns_throw
    · obtain ⟨_, -, h⟩ := returns_bind.mp h
      split at h
      · exact absurd h not_returns_throw
      · split at h
        · exact absurd h not_returns_throw
        · cases returns_pure.mp h
          exact unbased.push rfl

lemma Unbased.collectItem {item : NodeId × ℕ} (unbased : Unbased library)
    (h : Returns (collectItem doc library item) library') : Unbased library' := by
  unfold Prefab.collectItem at h
  dsimp only at h
  split at h
  · exact absurd h not_returns_throw
  · obtain ⟨_, -, h⟩ := returns_bind.mp h
    split at h
    · exact absurd h not_returns_throw
    · cases returns_pure.mp h
      exact unbased.push rfl

lemma Unbased.collectLibrary {parsed : Parsed δ}
    (h : Returns (collectLibrary parsed .empty) library) : Unbased library := by
  have empty : Unbased .empty := nofun
  unfold Prefab.collectLibrary at h
  split at h
  · exact absurd h not_returns_throw
  · split at h
    · unfold collectSectionList at h
      dsimp only at h
      split at h
      · exact absurd h not_returns_throw
      · obtain ⟨collected, hcollected, h⟩ := returns_bind.mp h
        obtain ⟨_, -, h⟩ := returns_bind.mp h
        obtain ⟨root, -, h⟩ := returns_bind.mp h
        have unbased : Unbased collected :=
          returns_foldlM hcollected empty fun _ _ _ _ hl hitem => hl.collectItem hitem
        cases root with
        | none => exact absurd h not_returns_throw
        | some root =>
          cases returns_pure.mp h
          exact unbased
    · split at h
      · obtain ⟨_, -, h⟩ := returns_bind.mp h
        cases returns_pure.mp h
        exact empty.push rfl
      · obtain ⟨collected, hcollected, h⟩ := returns_bind.mp h
        obtain ⟨entries, hentries, hcollected⟩ := returns_bind.mp hcollected
        have unbased : Unbased entries :=
          returns_foldlM hentries empty fun _ _ _ _ hl hentry => hl.collectEntry hentry
        cases returns_pure.mp hcollected
        split at h
        · exact absurd h not_returns_throw
        · cases returns_pure.mp h
          exact unbased

/-- **`resolve_prefab_bases` gets definitions without bases** in every load. -/
theorem unbased_of_build {parsed : Parsed δ} (collected : Returns (collectLibrary parsed .empty) library)
    (linked : Returns ((topIndices library).foldlM (buildPrefabParent parsed.doc (nodeFuel parsed)) library)
      library') : ∀ d ∈ library'.definitions, d.base = none :=
  returns_foldlM linked (Unbased.collectLibrary collected) fun _ _ _ _ hl h => hl.buildPrefabParent h

end PulseEngine.Prefab
