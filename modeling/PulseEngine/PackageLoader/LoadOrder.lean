import PulseEngine.Library.Schedule

/-!
# The order of packages

The ordering loop of `load_packages_impl` in `package_loader.cpp`. A package has two names, the one of its
entry and the one of its manifest, and a dependency can be written by either. Passes over the packages that
are left go on until one makes no progress; what is left then is told apart into a missing and a circular
dependency.
-/

namespace PulseEngine.PackageLoader

open Library

abbrev Name := List Char

/-- What the ordering reads of an entry and of its `ResolvedPackage`. -/
structure Package where
  name : Name
  manifestName : Name
  dependencies : List Name
  deriving DecidableEq, Repr

/-- `EPulsePackageLoadResult`. -/
inductive LoadResult where
  | ok
  | invalidArgument
  | invalidState
  | libraryNotFound
  | entryNotFound
  | registerFailed
  | duplicatePackage
  | missingDependency
  | circularDependency
  | unknownRuntime
  | internal
  deriving DecidableEq, Repr

def lowerCase (c : Char) : Char :=
  if 'A' ≤ c ∧ c ≤ 'Z' then Char.ofNat (c.toNat - 'A'.toNat + 'a'.toNat) else c

def iequals (windows : Bool) (a b : Name) : Bool :=
  if windows then a.map lowerCase = b.map lowerCase else a = b

section Ordering

variable (windows : Bool) (hasPlugin : Name → Bool) (packages : List Package)

def manifestNames (name : Name) : Option Name :=
  (packages.find? fun p => p.manifestName ≠ [] ∧ p.name = name).map Package.manifestName

def packageNameLoaded (loaded : List Name) (name : Name) : Bool :=
  hasPlugin name ||
    (match manifestNames packages name with
      | some manifestName => manifestName ≠ [] && hasPlugin manifestName
      | none => false) ||
    loaded.any fun item => iequals windows item name

structure LoadOrder where
  loadedFlag : List Bool
  order : List ℕ
  loaded : List Name
  remaining : ℕ
  deriving DecidableEq, Repr

def visit (s : LoadOrder × Bool) (package : Package × ℕ) : LoadOrder × Bool :=
  let (p, i) := package
  if s.1.loadedFlag[i]? = some true then s
  else if p.dependencies.all (packageNameLoaded windows hasPlugin packages s.1.loaded) then
    ({ loadedFlag := s.1.loadedFlag.set i true
       order := s.1.order ++ [i]
       loaded := s.1.loaded ++ [p.name] ++
        if p.manifestName ≠ [] ∧ p.manifestName ≠ p.name then [p.manifestName] else []
       remaining := s.1.remaining - 1 }, true)
  else s

def pass (s : LoadOrder) : LoadOrder × Bool :=
  packages.zipIdx.foldl (visit windows hasPlugin packages) (s, false)

/-- The `while` loop; without a result when its turns are used up. -/
def orderLoop : ℕ → LoadOrder → Option LoadOrder
  | 0, _ => none
  | turns + 1, s =>
    if s.remaining = 0 then some s
    else
      match pass windows hasPlugin packages s with
      | (s, true) => orderLoop turns s
      | (s, false) => some s

def inPending (s : LoadOrder) (dependency : Name) : Bool :=
  packages.zipIdx.any fun (p, j) =>
    s.loadedFlag[j]? ≠ some true && iequals windows p.name dependency

def hasMissing (s : LoadOrder) : Bool :=
  packages.zipIdx.any fun (p, i) =>
    s.loadedFlag[i]? ≠ some true && p.dependencies.any fun dependency =>
      !packageNameLoaded windows hasPlugin packages s.loaded dependency &&
        !inPending windows packages s dependency

def LoadOrder.start : LoadOrder :=
  ⟨List.replicate packages.length false, [], [], packages.length⟩

def orderPackages : Option (Except LoadResult (List ℕ)) :=
  (orderLoop windows hasPlugin packages (packages.length + 1) (.start packages)).map fun s =>
    if s.remaining = 0 then .ok s.order
    else if hasMissing windows hasPlugin packages s then .error .missingDependency
    else .error .circularDependency

end Ordering

section Statements

variable (windows : Bool) (hasPlugin : Name → Bool) (packages : List Package)

def Package.Named (p : Package) (name : Name) : Prop :=
  iequals windows p.name name ∨ p.manifestName ≠ [] ∧ iequals windows p.manifestName name

def demands : Demands ℕ Name where
  items := { i | i < packages.length }
  needs i := (packages[i]?.map Package.dependencies).getD []
  given d := packageNameLoaded windows hasPlugin packages [] d = true
  provides i d := ∃ p ∈ packages[i]?, p.Named windows d

def Unlisted : Prop :=
  ∃ i, ∃ d ∈ (demands windows hasPlugin packages).needs i, ¬ (demands windows hasPlugin packages).given d ∧
    ∀ j, ¬ (demands windows hasPlugin packages).provides j d

/-- A dependency that keeps a package from being loaded: the app does not have it, and no package that can
be loaded has the name. -/
def Blocks (i : ℕ) (d : Name) : Prop :=
  i < packages.length ∧ ¬ (demands windows hasPlugin packages).Orderable i ∧
    d ∈ (demands windows hasPlugin packages).needs i ∧ ¬ (demands windows hasPlugin packages).given d ∧
      ∀ j, (demands windows hasPlugin packages).provides j d →
        ¬ (demands windows hasPlugin packages).Orderable j

def EntryNamed (i : ℕ) (d : Name) : Prop := ∃ p ∈ packages[i]?, iequals windows p.name d = true

/-- The ordering is what it should be: it succeeds exactly for closed and acyclic dependencies, with an
order of all packages in which every package comes after what it depends on, and else it tells a missing
dependency from a circular one. -/
structure OrdersRight (result : Except LoadResult (List ℕ)) : Prop where
  success : (∃ order, result = .ok order) ↔ (demands windows hasPlugin packages).ClosedAcyclic
  order : ∀ order, result = .ok order → order.Perm (List.range packages.length) ∧
    (demands windows hasPlugin packages).Scheduled order
  failure : ∀ e, result = .error e → (e = .missingDependency ↔ Unlisted windows hasPlugin packages) ∧
    (¬ Unlisted windows hasPlugin packages → e = .circularDependency)

end Statements

variable {windows : Bool} {hasPlugin : Name → Bool} {packages : List Package} {s s' : LoadOrder}
  {p : Package} {i : ℕ} {d : Name}

/-- The state of the loop: the packages in the order are the loaded ones, by both of their names. -/
structure Inv (windows : Bool) (hasPlugin : Name → Bool) (packages : List Package) (s : LoadOrder) :
    Prop where
  flags : ∀ i, s.loadedFlag[i]? = some true ↔ i ∈ s.order
  length : s.loadedFlag.length = packages.length
  nodup : s.order.Nodup
  bound : ∀ i ∈ s.order, i < packages.length
  loaded : ∀ d, (s.loaded.any fun item => iequals windows item d) = true ↔
    ∃ i ∈ s.order, (demands windows hasPlugin packages).provides i d
  scheduled : (demands windows hasPlugin packages).Scheduled s.order
  remaining : s.remaining + s.order.length = packages.length

lemma Inv.start : Inv windows hasPlugin packages (.start packages) where
  flags i := by simp [LoadOrder.start, List.getElem?_replicate]
  length := List.length_replicate ..
  nodup := List.nodup_nil
  bound := nofun
  loaded d := by simp [LoadOrder.start]
  scheduled := Demands.scheduled_nil
  remaining := rfl

lemma Inv.packageNameLoaded_iff (h : Inv windows hasPlugin packages s) (d : Name) :
    packageNameLoaded windows hasPlugin packages s.loaded d = true ↔
      (demands windows hasPlugin packages).given d ∨
        ∃ i ∈ s.order, (demands windows hasPlugin packages).provides i d := by
  rw [← h.loaded]
  unfold demands packageNameLoaded
  simp only [List.any_nil, Bool.or_false, Bool.or_eq_true]

lemma needs_eq (hp : packages[i]? = some p) :
    (demands windows hasPlugin packages).needs i = p.dependencies := by
  show (packages[i]?.map Package.dependencies).getD [] = p.dependencies
  rw [hp]
  rfl

lemma Inv.ready_iff (h : Inv windows hasPlugin packages s) (hp : packages[i]? = some p) :
    p.dependencies.all (packageNameLoaded windows hasPlugin packages s.loaded) = true ↔
      (demands windows hasPlugin packages).Ready s.order i := by
  rw [List.all_eq_true, Demands.Ready, needs_eq hp]
  exact forall₂_congr fun d _ => h.packageNameLoaded_iff d

lemma Inv.subperm_range (h : Inv windows hasPlugin packages s) :
    s.order.Subperm (List.range packages.length) :=
  h.nodup.subperm fun i hi => List.mem_range.mpr (h.bound i hi)

lemma Inv.perm_range (h : Inv windows hasPlugin packages s) (zero : s.remaining = 0) :
    s.order.Perm (List.range packages.length) := by
  have full := h.remaining
  rw [zero, Nat.zero_add] at full
  exact h.subperm_range.perm_of_length_le (by rw [List.length_range, full])

lemma Inv.load (h : Inv windows hasPlugin packages s) (hp : packages[i]? = some p) (out : i ∉ s.order)
    (ready : (demands windows hasPlugin packages).Ready s.order i) :
    Inv windows hasPlugin packages
      { loadedFlag := s.loadedFlag.set i true
        order := s.order ++ [i]
        loaded := s.loaded ++ [p.name] ++
          if p.manifestName ≠ [] ∧ p.manifestName ≠ p.name then [p.manifestName] else []
        remaining := s.remaining - 1 } := by
  have lt := (List.getElem?_eq_some_iff.mp hp).1
  have room : s.order.length < packages.length := by
    have sub : i :: s.order ⊆ List.range packages.length := by
      intro j hj
      rcases List.mem_cons.mp hj with rfl | hj
      · exact List.mem_range.mpr lt
      · exact List.mem_range.mpr (h.bound j hj)
    have := ((List.nodup_cons.mpr ⟨out, h.nodup⟩).subperm sub).length_le
    rwa [List.length_cons, List.length_range] at this
  refine ⟨fun j => ?_, ?_, ?_, ?_, fun d => ?_, h.scheduled.snoc ready, ?_⟩
  · dsimp only
    rw [List.getElem?_set, List.mem_append, List.mem_singleton]
    split
    · rename_i e
      rw [if_pos (by rw [h.length]; exact lt)]
      exact iff_of_true rfl (Or.inr e.symm)
    · rename_i hne
      rw [h.flags, or_iff_left (Ne.symm hne)]
  · exact (List.length_set ..).trans h.length
  · refine List.nodup_append.mpr ⟨h.nodup, List.nodup_singleton _, fun a ha b hb => ?_⟩
    rw [List.mem_singleton.mp hb]
    rintro rfl
    exact out ha
  · intro j hj
    rcases List.mem_append.mp hj with hj | hj
    · exact h.bound j hj
    · rwa [List.mem_singleton.mp hj]
  · have named : (demands windows hasPlugin packages).provides i d ↔ p.Named windows d := by
      unfold demands
      simp only [hp, Option.mem_def, Option.some.injEq, exists_eq_left']
    have names : ((if p.manifestName ≠ [] ∧ p.manifestName ≠ p.name then [p.manifestName] else []).any
          fun item => iequals windows item d) = true ∨ iequals windows p.name d = true ↔
        p.Named windows d := by
      unfold Package.Named
      split
      · rename_i two
        rw [List.any_cons, List.any_nil, Bool.or_false, or_comm, and_iff_right two.1]
      · rename_i one
        rcases not_and_or.mp one with empty | same
        · simp [not_not.mp empty]
        · simp [not_not.mp same]
    dsimp only
    rw [List.any_append, List.any_append, Bool.or_eq_true, Bool.or_eq_true, h.loaded, List.any_cons,
      List.any_nil, Bool.or_false, or_assoc, or_comm (a := iequals windows p.name d = true), names]
    constructor
    · rintro (⟨j, hj, provides⟩ | own)
      · exact ⟨j, List.mem_append_left _ hj, provides⟩
      · exact ⟨i, List.mem_append_right _ (List.mem_singleton_self i), named.mpr own⟩
    · rintro ⟨j, hj, provides⟩
      rcases List.mem_append.mp hj with hj | hj
      · exact Or.inl ⟨j, hj, provides⟩
      · cases List.mem_singleton.mp hj
        exact Or.inr (named.mp provides)
  · dsimp only
    have := h.remaining
    rw [List.length_append, List.length_singleton]
    omega

/-- What some of the visits of a pass do to `s`. -/
structure Passed (windows : Bool) (hasPlugin : Name → Bool) (packages : List Package)
    (visited : List (Package × ℕ)) (s : LoadOrder) (s' : LoadOrder × Bool) : Prop where
  inv : Inv windows hasPlugin packages s'.1
  progress : s'.2 = true → s'.1.remaining < s.remaining
  idle : s'.2 = false → s'.1 = s ∧
    ∀ v ∈ visited, v.2 ∉ s.order → ¬ (demands windows hasPlugin packages).Ready s.order v.2

lemma Passed.visit {visited : List (Package × ℕ)} {t : LoadOrder × Bool}
    (h : Passed windows hasPlugin packages visited s t) (le : t.1.remaining ≤ s.remaining)
    (hp : packages[i]? = some p) :
    Passed windows hasPlugin packages (visited ++ [(p, i)]) s
        (visit windows hasPlugin packages t (p, i)) ∧
      (PackageLoader.visit windows hasPlugin packages t (p, i)).1.remaining ≤ s.remaining := by
  have same : ∀ hidle : t.2 = false → i ∉ s.order →
      ¬ (demands windows hasPlugin packages).Ready s.order i,
      Passed windows hasPlugin packages (visited ++ [(p, i)]) s t := by
    intro hidle
    refine ⟨h.inv, h.progress, fun none => ?_⟩
    obtain ⟨e, before⟩ := h.idle none
    refine ⟨e, fun v hv => ?_⟩
    rcases List.mem_append.mp hv with hv | hv
    · exact before v hv
    · rw [List.mem_singleton.mp hv]
      exact hidle none
  unfold PackageLoader.visit
  dsimp only
  split
  · rename_i loaded
    rw [h.inv.flags] at loaded
    refine ⟨same fun none out => ?_, le⟩
    rw [← (h.idle none).1] at out
    exact absurd loaded out
  · rename_i left
    rw [h.inv.flags] at left
    split
    · rename_i ready
      rw [h.inv.ready_iff hp] at ready
      have next := h.inv.load hp left ready
      have counted := h.inv.remaining
      have counted' := next.remaining
      rw [List.length_append, List.length_singleton] at counted'
      dsimp only at counted'
      exact ⟨⟨next, fun _ => by dsimp only; omega, nofun⟩, by dsimp only; omega⟩
    · rename_i waits
      rw [h.inv.ready_iff hp] at waits
      refine ⟨same fun none _ => ?_, le⟩
      rwa [← (h.idle none).1]

lemma Inv.pass (h : Inv windows hasPlugin packages s) :
    Passed windows hasPlugin packages packages.zipIdx s (pass windows hasPlugin packages s) := by
  suffices visits : ∀ rest visited t, (∀ v ∈ rest, packages[v.2]? = some v.1) →
      Passed windows hasPlugin packages visited s t → t.1.remaining ≤ s.remaining →
        Passed windows hasPlugin packages (visited ++ rest) s
          (rest.foldl (PackageLoader.visit windows hasPlugin packages) t) by
    refine visits packages.zipIdx [] (s, false) (fun v hv => ?_) ⟨h, nofun, fun _ => ⟨rfl, nofun⟩⟩ le_rfl
    exact List.mk_mem_zipIdx_iff_getElem?.mp hv
  intro rest
  induction rest with
  | nil =>
    intro visited t _ passed _
    rwa [List.append_nil]
  | cons v rest ih =>
    intro visited t at_ passed le
    obtain ⟨hv, at_⟩ := List.forall_mem_cons.mp at_
    obtain ⟨passed', le'⟩ := passed.visit le (p := v.1) (i := v.2) hv
    have := ih (visited ++ [v]) _ at_ passed' le'
    rwa [List.append_assoc, List.singleton_append] at this

lemma Inv.orderLoop : ∀ {turns : ℕ} {s : LoadOrder}, Inv windows hasPlugin packages s →
    s.remaining < turns → ∃ s', orderLoop windows hasPlugin packages turns s = some s' ∧
      Inv windows hasPlugin packages s' ∧ ∀ i ∈ (demands windows hasPlugin packages).items,
        i ∉ s'.order → ¬ (demands windows hasPlugin packages).Ready s'.order i := by
  intro turns
  induction turns with
  | zero => exact fun _ lt => absurd lt (Nat.not_lt_zero _)
  | succ turns ih =>
    intro s h lt
    unfold PackageLoader.orderLoop
    split
    · rename_i zero
      refine ⟨s, rfl, h, fun i hi out => absurd ?_ out⟩
      exact (h.perm_range zero).mem_iff.mpr (List.mem_range.mpr hi)
    · have passed := h.pass
      cases hpass : PackageLoader.pass windows hasPlugin packages s with
      | mk t progress =>
        rw [hpass] at passed
        cases progress with
        | true => exact ih passed.inv ((passed.progress rfl).trans_le (Nat.le_of_lt_succ lt))
        | false =>
          obtain ⟨e, stuck⟩ := passed.idle rfl
          dsimp only at e
          rw [e]
          refine ⟨s, rfl, h, fun i hi => ?_⟩
          have hp := List.getElem?_eq_getElem (show i < packages.length from hi)
          exact stuck (packages[i], i) (List.mk_mem_zipIdx_iff_getElem?.mpr hp)

lemma EntryNamed.provides (h : EntryNamed windows packages i d) :
    (demands windows hasPlugin packages).provides i d := by
  obtain ⟨p, hp, named⟩ := h
  exact ⟨p, hp, Or.inl named⟩

lemma Unlisted.blocks (h : Unlisted windows hasPlugin packages) :
    ∃ i d, Blocks windows hasPlugin packages i d ∧ ∀ j, ¬ EntryNamed windows packages j d := by
  obtain ⟨i, d, hd, hgiven, none⟩ := h
  have lt : i < packages.length := by
    by_contra hge
    have hd : d ∈ (packages[i]?.map Package.dependencies).getD [] := hd
    rw [List.getElem?_eq_none (Nat.not_lt.mp hge)] at hd
    cases hd
  refine ⟨i, d, ⟨lt, fun ord => ?_, hd, hgiven, fun j hj => absurd hj (none j)⟩,
    fun j hj => none j hj.provides⟩
  cases ord with
  | intro provider _ provided _ => exact none _ (provided d hd hgiven)

lemma Inv.mem_order (h : Inv windows hasPlugin packages s)
    (stuck : ∀ i ∈ (demands windows hasPlugin packages).items, i ∉ s.order →
      ¬ (demands windows hasPlugin packages).Ready s.order i) (i : ℕ) :
    i ∈ s.order ↔ (demands windows hasPlugin packages).Orderable i :=
  ⟨h.scheduled.orderable h.bound i, fun ord => ord.mem_of_stuck stuck⟩

lemma Inv.inPending_iff (h : Inv windows hasPlugin packages s) :
    inPending windows packages s d = true ↔ ∃ j, j ∉ s.order ∧ EntryNamed windows packages j d := by
  rw [inPending, List.any_eq_true]
  constructor
  · rintro ⟨⟨p, j⟩, hv, named⟩
    rw [Bool.and_eq_true, decide_eq_true_eq, ne_eq, h.flags] at named
    exact ⟨j, named.1, p, List.mk_mem_zipIdx_iff_getElem?.mp hv, named.2⟩
  · rintro ⟨j, out, p, hp, named⟩
    refine ⟨(p, j), List.mk_mem_zipIdx_iff_getElem?.mpr hp, ?_⟩
    rw [Bool.and_eq_true, decide_eq_true_eq, ne_eq, h.flags]
    exact ⟨out, named⟩

lemma Inv.hasMissing_iff (h : Inv windows hasPlugin packages s)
    (stuck : ∀ i ∈ (demands windows hasPlugin packages).items, i ∉ s.order →
      ¬ (demands windows hasPlugin packages).Ready s.order i) :
    hasMissing windows hasPlugin packages s = true ↔
      ∃ i d, Blocks windows hasPlugin packages i d ∧ ∀ j, ¬ EntryNamed windows packages j d := by
  have mem := h.mem_order stuck
  rw [hasMissing, List.any_eq_true]
  constructor
  · rintro ⟨⟨p, i⟩, hv, missing⟩
    have hp := List.mk_mem_zipIdx_iff_getElem?.mp hv
    rw [Bool.and_eq_true, decide_eq_true_eq, ne_eq, h.flags, List.any_eq_true] at missing
    obtain ⟨out, d, hd, missing⟩ := missing
    rw [Bool.and_eq_true, Bool.not_eq_true', Bool.not_eq_true', ← Bool.not_eq_true, ← Bool.not_eq_true,
      h.packageNameLoaded_iff, h.inPending_iff] at missing
    obtain ⟨unmet, notPending⟩ := missing
    obtain ⟨hgiven, none⟩ := not_or.mp unmet
    refine ⟨i, d, ⟨(List.getElem?_eq_some_iff.mp hp).1, mt (mem i).mpr out, by rwa [needs_eq hp], hgiven,
      fun j hj hord => none ⟨j, (mem j).mpr hord, hj⟩⟩, fun j hj => ?_⟩
    rcases em (j ∈ s.order) with hin | hout
    · exact none ⟨j, hin, hj.provides⟩
    · exact notPending ⟨j, hout, hj⟩
  · rintro ⟨i, d, ⟨lt, hord, hd, hgiven, blocked⟩, unnamed⟩
    have hp := List.getElem?_eq_getElem lt
    refine ⟨(packages[i], i), List.mk_mem_zipIdx_iff_getElem?.mpr hp, ?_⟩
    rw [Bool.and_eq_true, decide_eq_true_eq, ne_eq, h.flags, List.any_eq_true]
    refine ⟨mt (mem i).mp hord, d, by rwa [← needs_eq hp], ?_⟩
    rw [Bool.and_eq_true, Bool.not_eq_true', Bool.not_eq_true', ← Bool.not_eq_true, ← Bool.not_eq_true,
      h.packageNameLoaded_iff, h.inPending_iff]
    refine ⟨not_or.mpr ⟨hgiven, ?_⟩, ?_⟩
    · rintro ⟨j, hin, hj⟩
      exact blocked j hj ((mem j).mp hin)
    · rintro ⟨j, -, hj⟩
      exact unnamed j hj

lemma orderPackages_ends (windows : Bool) (hasPlugin : Name → Bool) (packages : List Package) :
    ∃ result, orderPackages windows hasPlugin packages = some result ∧ result ≠ .error .ok := by
  have start : Inv windows hasPlugin packages (.start packages) := .start
  obtain ⟨s, hloop, -, -⟩ := start.orderLoop (Nat.lt_succ_self packages.length)
  refine ⟨_, by rw [orderPackages, hloop, Option.map_some], ?_⟩
  split
  · nofun
  · split <;> nofun

/-- **Load order.** For every list of packages the ordering ends, and it is what it should be if and only if
the dependencies are closed and acyclic, or some dependency names no listed package, or every dependency
that keeps a package from being loaded is the name of an entry. -/
theorem orderPackages_right_iff (windows : Bool) (hasPlugin : Name → Bool) (packages : List Package) :
    ∃ result, orderPackages windows hasPlugin packages = some result ∧
      (OrdersRight windows hasPlugin packages result ↔
        (demands windows hasPlugin packages).ClosedAcyclic ∨ Unlisted windows hasPlugin packages ∨
          ∀ i d, Blocks windows hasPlugin packages i d → ∃ j, EntryNamed windows packages j d) := by
  have start : Inv windows hasPlugin packages (.start packages) := .start
  obtain ⟨s, hloop, h, stuck⟩ := start.orderLoop (Nat.lt_succ_self packages.length)
  have mem := h.mem_order stuck
  have missing := h.hasMissing_iff stuck
  refine ⟨_, by rw [orderPackages, hloop, Option.map_some], ?_⟩
  have full : s.remaining = 0 ↔ (demands windows hasPlugin packages).ClosedAcyclic := by
    constructor
    · intro zero
      exact h.scheduled.closedAcyclic fun i => (h.perm_range zero).mem_iff.trans List.mem_range
    · intro closed
      have all := closed.orderable (Set.finite_lt_nat packages.length)
      have sub' : List.range packages.length ⊆ s.order := fun i hi =>
        (mem i).mpr (all i (List.mem_range.mp hi))
      have le := (List.nodup_range.subperm sub').length_le
      have counted := h.remaining
      rw [List.length_range] at le
      omega
  split
  · rename_i zero
    have closed := full.mp zero
    refine iff_of_true ⟨iff_of_true ⟨_, rfl⟩ closed, fun order e => ?_, nofun⟩ (Or.inl closed)
    cases e
    exact ⟨h.perm_range zero, h.scheduled⟩
  · rename_i left
    have notClosed := mt full.mpr left
    rw [or_iff_right notClosed]
    split
    · rename_i scanned
      obtain ⟨i, d, blocks, unnamed⟩ := missing.mp scanned
      have open' : ¬ ∀ i d, Blocks windows hasPlugin packages i d → ∃ j, EntryNamed windows packages j d :=
        fun all => by
          obtain ⟨j, hj⟩ := all i d blocks
          exact unnamed j hj
      rw [or_iff_left open']
      constructor
      · exact fun right => (right.failure _ rfl).1.mp rfl
      · intro unlisted
        refine ⟨iff_of_false (by rintro ⟨_, e⟩; cases e) notClosed, nofun, fun e he => ?_⟩
        cases he
        exact ⟨iff_of_true rfl unlisted, fun hnot => absurd unlisted hnot⟩
    · rename_i scanned
      have listed : ¬ Unlisted windows hasPlugin packages := fun unlisted => scanned (missing.mpr unlisted.blocks)
      refine iff_of_true ⟨iff_of_false (by rintro ⟨_, e⟩; cases e) notClosed, nofun, fun e he => ?_⟩ (Or.inr ?_)
      · cases he
        exact ⟨iff_of_false nofun listed, fun _ => rfl⟩
      · intro i d blocks
        by_contra none
        exact scanned (missing.mpr ⟨i, d, blocks, fun j hj => none ⟨j, hj⟩⟩)

def circle : List Package :=
  [⟨['a'], [], [['y']]⟩, ⟨['b'], ['y'], [['a']]⟩]

/-- The circle is taken for a missing dependency. -/
theorem not_orderPackages_right : ¬ ∀ windows hasPlugin packages result,
    orderPackages windows hasPlugin packages = some result →
      OrdersRight windows hasPlugin packages result := by
  intro law
  have right := law false (fun _ => false) circle (.error .missingDependency) (by decide)
  obtain ⟨i, d, hd, -, none⟩ := (right.failure _ rfl).1.mp rfl
  match i, hd with
  | 0, hd =>
    obtain rfl := List.mem_singleton.mp hd
    exact none 1 ⟨_, rfl, Or.inr (by decide)⟩
  | 1, hd =>
    obtain rfl := List.mem_singleton.mp hd
    exact none 0 ⟨_, rfl, Or.inl (by decide)⟩

end PulseEngine.PackageLoader
