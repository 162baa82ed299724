import PulseEngine.Application.Plugins

/-!
# What keeps the pending plugins from being built

The stuck case of `App::drain_pending_plugins` and `App::find_circular_dependency`: a depth-first search
over the pending plugins by their indices, which remembers for every plugin from which one it was entered.
A search that does not end, or that looks up a parent that was not set, has no result here.
-/

namespace PulseEngine.Application

/-- The values of `visit_state`. -/
inductive VisitState where
  | unvisited
  | visiting
  | visited
  deriving DecidableEq, Repr

/-- The locals of `find_circular_dependency` that `dfs` changes. -/
structure CycleSearch where
  visitState : ℕ → VisitState
  parent : ℕ → Option ℕ

def arrow : List Char := " -> ".toList

namespace App

section Search

variable (a : App)

def indexOf (name : Name) : Option ℕ := a.pendingPlugins.findIdx? fun entry => entry.name = name

def pendingName (index : ℕ) : Name := (a.pendingPlugins[index]?.map Plugin.name).getD []

/-- The `while` loop of `dfs`, which puts names in front of `result` up to the plugin `next`. -/
def walkBack (parent : ℕ → Option ℕ) (next : ℕ) : ℕ → ℕ → List Char → Option (List Char)
  | 0, _, _ => none
  | turns + 1, current, result =>
    if current = next then some result
    else
      let result := a.pendingName current ++ arrow ++ result
      (parent current).bind fun current => walkBack parent next turns current result

/-- The `result` of `dfs` when the plugin `next` is being visited. -/
def circleText (parent : ℕ → Option ℕ) (index next : ℕ) : Option (List Char) :=
  (a.walkBack parent next (a.pendingPlugins.length + 1) index (a.pendingName next)).map fun result =>
    a.pendingName next ++ arrow ++ result

/-- The loop of `dfs` over the dependencies of the plugin `index`. -/
def dfsDependencies (dfs : ℕ → CycleSearch → Option (CycleSearch × Option (List Char))) (index : ℕ) :
    List Name → CycleSearch → Option (CycleSearch × Option (List Char))
  | [], s => some ({ s with visitState := Function.update s.visitState index .visited }, none)
  | dependency :: rest, s =>
    match a.indexOf dependency with
    | none => dfsDependencies dfs index rest s
    | some next =>
      match s.visitState next with
      | .visiting => (a.circleText s.parent index next).map fun result => (s, some result)
      | .unvisited =>
        match dfs next { s with parent := Function.update s.parent next (some index) } with
        | none => none
        | some (s, some result) => some (s, some result)
        | some (s, none) => dfsDependencies dfs index rest s
      | .visited => dfsDependencies dfs index rest s

def dfs : ℕ → ℕ → CycleSearch → Option (CycleSearch × Option (List Char))
  | 0, _, _ => none
  | depth + 1, index, s =>
    a.pendingPlugins[index]?.bind fun entry =>
      a.dfsDependencies (dfs depth) index entry.dependencies
        { s with visitState := Function.update s.visitState index .visiting }

def searchFrom : List ℕ → CycleSearch → Option (List Char)
  | [], _ => some []
  | i :: rest, s =>
    if s.visitState i = .unvisited then
      match a.dfs (a.pendingPlugins.length + 1) i s with
      | none => none
      | some (_, some result) => some result
      | some (s, none) => searchFrom rest s
    else searchFrom rest s

def findCircularDependency : Option (List Char) :=
  a.searchFrom (List.range a.pendingPlugins.length) ⟨fun _ => .unvisited, fun _ => none⟩

def missingDependency : Option (Name × Name) :=
  a.pendingPlugins.findSome? fun pending =>
    (pending.dependencies.find? fun dependency =>
      !a.hasPlugin dependency && !a.hasPendingPlugin dependency).map fun dependency =>
        (pending.name, dependency)

/-- The result and the error of `drain_pending_plugins` when no pending plugin is ready. -/
def diagnose : Option (AddPluginResult × List Char) :=
  match a.missingDependency with
  | some (name, dependency) =>
    some (.missingPluginDependency,
      "plugin '".toList ++ name ++ "' depends on missing plugin '".toList ++ dependency ++ "'".toList)
  | none =>
    a.findCircularDependency.map fun cycle =>
      (.circularPluginDependency,
        if cycle = [] then "circular plugin dependency detected".toList
        else "circular plugin dependency detected: ".toList ++ cycle)

end Search

def pathText : List Name → List Char
  | [] => []
  | [name] => name
  | name :: names => name ++ arrow ++ pathText names

/-- A way through pending plugins, each of which depends on the next one, back to where it began. -/
structure Cycle (a : App) (cycle : List Plugin) : Prop where
  pending : ∀ p ∈ cycle, p ∈ a.pendingPlugins
  depends : cycle.IsChain fun p q => q.name ∈ p.dependencies
  closed : 2 ≤ cycle.length ∧ cycle.head? = cycle.getLast?

variable {a : App}

def Edge (a : App) (i j : ℕ) : Prop :=
  ∃ p ∈ a.pendingPlugins[i]?, ∃ d ∈ p.dependencies, a.indexOf d = some j

lemma pathText_cons (name : Name) {names : List Name} (h : names ≠ []) :
    pathText (name :: names) = name ++ arrow ++ pathText names := by
  cases names with
  | nil => exact absurd rfl h
  | cons _ _ => rfl

lemma walkBack_spec {parent : ℕ → Option ℕ} {next : ℕ} : ∀ {stack : List ℕ} {current turns : ℕ}
    {path : List ℕ}, (current :: stack).IsChain (fun c u => parent c = some u ∧ a.Edge u c) →
      next ∈ current :: stack → stack.length < turns → path ≠ [] → (current :: path).IsChain a.Edge →
        ∃ way, a.walkBack parent next turns current (pathText (path.map a.pendingName)) =
            some (pathText (way.map a.pendingName)) ∧
          (next :: way).IsChain a.Edge ∧ way ≠ [] ∧ way.getLast? = path.getLast? := by
  intro stack
  induction stack with
  | nil =>
    intro current turns path _ mem lt ne chain
    obtain rfl := List.mem_singleton.mp mem
    obtain ⟨turns, rfl⟩ := Nat.exists_eq_add_of_lt lt
    exact ⟨path, if_pos rfl, chain, ne, rfl⟩
  | cons up stack ih =>
    intro current turns path links mem lt ne chain
    obtain ⟨turns, rfl⟩ := Nat.exists_eq_succ_of_ne_zero (Nat.ne_zero_of_lt lt)
    rcases eq_or_ne current next with rfl | hne
    · exact ⟨path, if_pos rfl, chain, ne, rfl⟩
    · obtain ⟨⟨hparent, edge⟩, links⟩ := List.isChain_cons_cons.mp links
      obtain ⟨way, hway, chain', ne', last⟩ := ih links
        ((List.mem_cons.mp mem).resolve_left hne.symm) (Nat.lt_of_succ_lt_succ lt)
        (List.cons_ne_nil current path) (List.isChain_cons_cons.mpr ⟨edge, chain⟩)
      refine ⟨way, ?_, chain', ne', last.trans ?_⟩
      · unfold walkBack
        rw [if_neg hne, hparent, Option.bind_some, ← hway, List.map_cons,
          pathText_cons _ (by simpa using ne)]
      · obtain ⟨x, xs, rfl⟩ := List.exists_cons_of_ne_nil ne
        exact List.getLast?_cons_cons

def Genuine (a : App) (text : List Char) : Prop :=
  ∃ next way, (next :: way).IsChain a.Edge ∧ way.getLast? = some next ∧
    text = pathText ((next :: way).map a.pendingName)

lemma circleText_spec {parent : ℕ → Option ℕ} {index next : ℕ} {stack : List ℕ}
    (links : (index :: stack).IsChain fun c u => parent c = some u ∧ a.Edge u c)
    (mem : next ∈ index :: stack) (length : stack.length ≤ a.pendingPlugins.length)
    (edge : a.Edge index next) :
    ∃ text, a.circleText parent index next = some text ∧ a.Genuine text := by
  have lt : stack.length < a.pendingPlugins.length + 1 := Nat.lt_succ_of_le length
  obtain ⟨way, hway, chain, ne, last⟩ := walkBack_spec links mem lt (List.cons_ne_nil next [])
    (List.isChain_pair.mpr edge)
  refine ⟨_, ?_, next, way, chain, last, rfl⟩
  have hway : a.walkBack parent next (a.pendingPlugins.length + 1) index (a.pendingName next) =
      some (pathText (way.map a.pendingName)) := hway
  unfold circleText
  rw [hway, Option.map_some, List.map_cons, pathText_cons _ (fun h => ne (List.map_eq_nil_iff.mp h))]

def fresh (a : App) (s : CycleSearch) : ℕ :=
  ((Finset.range a.pendingPlugins.length).filter fun i => s.visitState i = .unvisited).card

structure Active (a : App) (s : CycleSearch) (stack : List ℕ) : Prop where
  visiting : ∀ i, s.visitState i = .visiting ↔ i ∈ stack
  links : stack.IsChain fun c u => s.parent c = some u ∧ a.Edge u c
  nodup : stack.Nodup
  bound : ∀ i ∈ stack, i < a.pendingPlugins.length

def Outcome (a : App) (s : CycleSearch) (stack : List ℕ) :
    Option (CycleSearch × Option (List Char)) → Prop
  | none => False
  | some (_, some text) => a.Genuine text
  | some (s', none) => a.Active s' stack ∧ a.fresh s' ≤ a.fresh s

variable {s s' : CycleSearch} {stack : List ℕ} {index : ℕ}

lemma Active.length_le (h : a.Active s stack) : stack.length ≤ a.pendingPlugins.length := by
  have sub : stack ⊆ List.range a.pendingPlugins.length := fun i hi => List.mem_range.mpr (h.bound i hi)
  have := (h.nodup.subperm sub).length_le
  rwa [List.length_range] at this

lemma indexOf_eq_some {name : Name} {j : ℕ} (h : a.indexOf name = some j) :
    ∃ q, a.pendingPlugins[j]? = some q ∧ q.name = name := by
  obtain ⟨lt, hname, -⟩ := List.findIdx?_eq_some_iff_getElem.mp h
  exact ⟨_, List.getElem?_eq_getElem lt, by simpa using hname⟩

lemma Active.enter (h : a.Active s stack) (lt : index < a.pendingPlugins.length)
    (unvisited : s.visitState index = .unvisited)
    (link : ∀ u ∈ stack.head?, s.parent index = some u ∧ a.Edge u index) :
    a.Active { s with visitState := Function.update s.visitState index .visiting } (index :: stack) ∧
      a.fresh { s with visitState := Function.update s.visitState index .visiting } < a.fresh s := by
  have out : index ∉ stack := fun hm => by
    have := (h.visiting index).mpr hm
    rw [unvisited] at this
    cases this
  refine ⟨⟨fun i => ?_, ?_, List.nodup_cons.mpr ⟨out, h.nodup⟩, ?_⟩, ?_⟩
  · dsimp only
    rcases eq_or_ne i index with rfl | hne
    · simp
    · rw [Function.update_of_ne hne, h.visiting, List.mem_cons, or_iff_right hne]
  · exact List.isChain_cons.mpr ⟨link, h.links⟩
  · intro i hi
    rcases List.mem_cons.mp hi with rfl | hi
    · exact lt
    · exact h.bound i hi
  · refine Finset.card_lt_card ((Finset.ssubset_iff_of_subset fun i hi => ?_).mpr ⟨index, ?_, ?_⟩)
    · obtain ⟨hn, hi⟩ := Finset.mem_filter.mp hi
      rcases eq_or_ne i index with rfl | hne
      · simp at hi
      · exact Finset.mem_filter.mpr ⟨hn, by simpa [Function.update_of_ne hne] using hi⟩
    · exact Finset.mem_filter.mpr ⟨Finset.mem_range.mpr lt, unvisited⟩
    · simp

lemma Active.leave (h : a.Active s (index :: stack)) :
    a.Active { s with visitState := Function.update s.visitState index .visited } stack ∧
      a.fresh { s with visitState := Function.update s.visitState index .visited } ≤ a.fresh s := by
  obtain ⟨out, nodup⟩ := List.nodup_cons.mp h.nodup
  refine ⟨⟨fun i => ?_, h.links.tail, nodup, fun i hi => h.bound i (List.mem_cons_of_mem _ hi)⟩, ?_⟩
  · dsimp only
    rcases eq_or_ne i index with rfl | hne
    · simp [out]
    · rw [Function.update_of_ne hne, h.visiting, List.mem_cons, or_iff_right hne]
  · refine Finset.card_le_card fun i hi => ?_
    obtain ⟨hn, hi⟩ := Finset.mem_filter.mp hi
    rcases eq_or_ne i index with rfl | hne
    · simp at hi
    · exact Finset.mem_filter.mpr ⟨hn, by simpa [Function.update_of_ne hne] using hi⟩

lemma Active.setParent (h : a.Active s stack) {next : ℕ} (unvisited : s.visitState next = .unvisited)
    (u : ℕ) : a.Active { s with parent := Function.update s.parent next (some u) } stack := by
  refine { h with links := h.links.imp_of_mem_imp fun c v hc _ hlink => ⟨?_, hlink.2⟩ }
  have hne : c ≠ next := by
    rintro rfl
    exact absurd (((h.visiting c).mpr hc).symm.trans unvisited) (by simp)
  exact (Function.update_of_ne hne _ _).trans hlink.1

lemma Outcome.mono {r : Option (CycleSearch × Option (List Char))} (h : a.Outcome s' stack r)
    (le : a.fresh s' ≤ a.fresh s) : a.Outcome s stack r := by
  match r, h with
  | some (_, some _), h => exact h
  | some (_, none), h => exact ⟨h.1, h.2.trans le⟩

/-- **The search below one plugin** ends with a path or leaves as many plugins being visited as before. -/
lemma dfs_outcome : ∀ {depth index : ℕ} {s : CycleSearch} {stack : List ℕ}, a.Active s stack →
    index < a.pendingPlugins.length → s.visitState index = .unvisited →
      (∀ u ∈ stack.head?, s.parent index = some u ∧ a.Edge u index) → a.fresh s ≤ depth →
        a.Outcome s stack (a.dfs depth index s) := by
  intro depth
  induction depth with
  | zero =>
    intro index s stack h lt unvisited link le
    have := (h.enter lt unvisited link).2
    omega
  | succ depth ih =>
    intro index s stack h lt unvisited link le
    obtain ⟨entered, less⟩ := h.enter lt unvisited link
    have hentry := List.getElem?_eq_getElem lt
    set entry := a.pendingPlugins[index]
    unfold dfs
    rw [hentry, Option.bind_some]
    refine Outcome.mono ?_ less.le
    have le' := Nat.le_of_lt_succ (less.trans_le le)
    generalize ({ s with visitState := Function.update s.visitState index .visiting } : CycleSearch) = s₁
      at entered le' ⊢
    -- the loop over the dependencies that are left
    suffices loop : ∀ deps ⊆ entry.dependencies, ∀ s₁, a.Active s₁ (index :: stack) →
        a.fresh s₁ ≤ depth → a.Outcome s₁ stack (a.dfsDependencies (a.dfs depth) index deps s₁) from
      loop _ (List.Subset.refl _) s₁ entered le'
    intro deps
    induction deps with
    | nil => exact fun _ s₁ entered _ => entered.leave
    | cons dependency deps ihd =>
      intro sub s₁ entered le₁
      obtain ⟨hd, sub⟩ := List.cons_subset.mp sub
      unfold dfsDependencies
      cases hnext : a.indexOf dependency with
      | none => exact ihd sub s₁ entered le₁
      | some next =>
        have edge : a.Edge index next := ⟨entry, hentry, dependency, hd, hnext⟩
        obtain ⟨q, hq, -⟩ := indexOf_eq_some hnext
        dsimp only
        cases hv : s₁.visitState next with
        | visiting =>
          have length := entered.length_le
          rw [List.length_cons] at length
          obtain ⟨text, htext, genuine⟩ := circleText_spec entered.links
            ((entered.visiting next).mp hv) (by omega) edge
          dsimp only
          rw [htext]
          exact genuine
        | unvisited =>
          have found := ih (entered.setParent hv index) (List.getElem?_eq_some_iff.mp hq).1 hv
            (fun u hu => by
              cases Option.some.inj hu
              exact ⟨Function.update_self .., edge⟩) le₁
          dsimp only
          cases hr : a.dfs depth next { s₁ with parent := Function.update s₁.parent next (some index) } with
          | none =>
            rw [hr] at found
            exact found.elim
          | some r =>
            obtain ⟨s₂, text⟩ := r
            rw [hr] at found
            cases text with
            | some text => exact found
            | none => exact (ihd sub s₂ found.1 (found.2.trans le₁)).mono found.2
        | visited => exact ihd sub s₁ entered le₁

lemma searchFrom_spec : ∀ {indices : List ℕ} {s : CycleSearch},
    (∀ i ∈ indices, i < a.pendingPlugins.length) → a.Active s [] →
      ∃ text, a.searchFrom indices s = some text ∧ (text = [] ∨ a.Genuine text) := by
  intro indices
  induction indices with
  | nil => exact fun _ _ => ⟨[], rfl, Or.inl rfl⟩
  | cons i indices ih =>
    intro s lt h
    obtain ⟨hi, lt⟩ := List.forall_mem_cons.mp lt
    unfold searchFrom
    split
    · rename_i unvisited
      have few : a.fresh s ≤ a.pendingPlugins.length + 1 := by
        have := Finset.card_filter_le (Finset.range a.pendingPlugins.length)
          fun i => s.visitState i = .unvisited
        rw [Finset.card_range] at this
        exact this.trans (Nat.le_succ _)
      have found := dfs_outcome h hi unvisited nofun few
      cases hr : a.dfs (a.pendingPlugins.length + 1) i s with
      | none =>
        rw [hr] at found
        exact found.elim
      | some r =>
        obtain ⟨s₁, text⟩ := r
        rw [hr] at found
        cases text with
        | some text => exact ⟨text, rfl, Or.inr found⟩
        | none => exact ih lt found.1
    · exact ih lt h

lemma Active.start (a : App) : a.Active ⟨fun _ => .unvisited, fun _ => none⟩ [] :=
  ⟨fun i => by simp, List.isChain_nil, List.nodup_nil, nofun⟩

/-- **The search ends.** -/
theorem findCircularDependency_spec (a : App) :
    ∃ text, a.findCircularDependency = some text ∧ (text = [] ∨ a.Genuine text) :=
  searchFrom_spec (fun _ hi => List.mem_range.mp hi) (.start a)

lemma dfs_finds (edges : ∀ p ∈ a.pendingPlugins, ∃ d ∈ p.dependencies, (a.indexOf d).isSome) :
    ∀ {depth index : ℕ} {s s' : CycleSearch} {text : Option (List Char)},
      (∀ i, s.visitState i ≠ .visited) → a.dfs depth index s = some (s', text) → text.isSome := by
  intro depth
  induction depth with
  | zero =>
    intro _ _ _ _ _ h
    cases h
  | succ depth ih =>
    intro index s s' text fresh h
    unfold dfs at h
    obtain ⟨entry, hentry, h⟩ := Option.bind_eq_some_iff.mp h
    have fresh : ∀ i, Function.update s.visitState index .visiting i ≠ .visited := by
      intro i
      rcases eq_or_ne i index with rfl | hne
      · simp
      · simpa [Function.update_of_ne hne] using fresh i
    change ∀ i, ({ s with visitState := Function.update s.visitState index .visiting } :
      CycleSearch).visitState i ≠ .visited at fresh
    generalize ({ s with visitState := Function.update s.visitState index .visiting } : CycleSearch) = s₁
      at fresh h
    -- the loop over the dependencies that are left
    suffices loop : ∀ deps, (∃ d ∈ deps, (a.indexOf d).isSome) → ∀ s₁ : CycleSearch,
        (∀ i, s₁.visitState i ≠ .visited) →
          a.dfsDependencies (a.dfs depth) index deps s₁ = some (s', text) → text.isSome from
      loop _ (edges entry (List.mem_of_getElem? hentry)) s₁ fresh h
    intro deps
    induction deps with
    | nil => exact fun ⟨_, hd, _⟩ => nomatch hd
    | cons dependency deps ihd =>
      rintro ⟨d, hd, hsome⟩ s₁ fresh h
      unfold dfsDependencies at h
      cases hnext : a.indexOf dependency with
      | none =>
        rw [hnext] at h
        refine ihd ⟨d, (List.mem_cons.mp hd).resolve_left ?_, hsome⟩ s₁ fresh h
        rintro rfl
        rw [hnext] at hsome
        cases hsome
      | some next =>
        rw [hnext] at h
        dsimp only at h
        cases hv : s₁.visitState next with
        | visited => exact absurd hv (fresh next)
        | visiting =>
          rw [hv] at h
          obtain ⟨result, -, e⟩ := Option.map_eq_some_iff.mp h
          cases e
          rfl
        | unvisited =>
          rw [hv] at h
          dsimp only at h
          split at h
          · cases h
          · cases h
            rfl
          · rename_i s₂ hr
            exact absurd (ih (by simpa using fresh) hr) (by simp)

lemma plugins_of_path : ∀ {path : List ℕ} {i : ℕ} {p : Plugin}, (i :: path).IsChain a.Edge →
    a.pendingPlugins[i]? = some p →
      ∃ ps, List.Forall₂ (fun i p => a.pendingPlugins[i]? = some p) (i :: path) (p :: ps) ∧
        (p :: ps).IsChain fun p q => q.name ∈ p.dependencies := by
  intro path
  induction path with
  | nil => exact fun _ hp => ⟨[], .cons hp .nil, List.isChain_singleton _⟩
  | cons j path ih =>
    intro i p chain hp
    obtain ⟨⟨p', hp', d, hd, hj⟩, chain⟩ := List.isChain_cons_cons.mp chain
    cases hp.symm.trans hp'
    obtain ⟨q, hq, rfl⟩ := indexOf_eq_some hj
    obtain ⟨ps, all, chain'⟩ := ih chain hq
    exact ⟨q :: ps, .cons hp all, List.isChain_cons_cons.mpr ⟨hd, chain'⟩⟩

lemma names_of_path {path : List ℕ} {ps : List Plugin}
    (all : List.Forall₂ (fun i p => a.pendingPlugins[i]? = some p) path ps) :
    path.map a.pendingName = ps.map Plugin.name ∧ (∀ p ∈ ps, p ∈ a.pendingPlugins) ∧
      path.getLast?.bind (a.pendingPlugins[·]?) = ps.getLast? := by
  induction all with
  | nil => exact ⟨rfl, nofun, rfl⟩
  | @cons i p path ps hp all ih =>
    obtain ⟨names, mem, last⟩ := ih
    refine ⟨?_, List.forall_mem_cons.mpr ⟨List.mem_of_getElem? hp, mem⟩, ?_⟩
    · rw [List.map_cons, List.map_cons, names]
      exact congrArg (· :: _) (by simp [pendingName, hp])
    · cases all with
      | nil => exact hp
      | cons _ _ => exact last

lemma Genuine.cycle {text : List Char} (h : a.Genuine text) :
    ∃ cycle, a.Cycle cycle ∧ text = pathText (cycle.map Plugin.name) := by
  obtain ⟨next, way, chain, last, rfl⟩ := h
  obtain ⟨j, way, rfl⟩ := List.exists_cons_of_ne_nil (l := way) (by
    rintro rfl
    cases last)
  obtain ⟨p, hp, -⟩ := (List.isChain_cons_cons.mp chain).1
  obtain ⟨ps, all, depends⟩ := plugins_of_path chain hp
  obtain ⟨names, mem, hlast⟩ := names_of_path all
  refine ⟨p :: ps, ⟨mem, depends, ?_, ?_⟩, by rw [names]⟩
  · rw [← all.length_eq]
    exact Nat.succ_le_succ (Nat.succ_le_succ (Nat.zero_le _))
  · rw [← hlast, List.getLast?_cons_cons, last, Option.bind_some]
    exact hp.symm

lemma Genuine.ne_nil {text : List Char} (h : a.Genuine text) : text ≠ [] := by
  obtain ⟨next, way, -, last, rfl⟩ := h
  have ne : way.map a.pendingName ≠ [] := by
    intro h
    rw [List.map_eq_nil_iff.mp h] at last
    cases last
  rw [List.map_cons, pathText_cons _ ne]
  simp [arrow]

lemma findCircularDependency_finds (nonempty : a.pendingPlugins ≠ [])
    (edges : ∀ p ∈ a.pendingPlugins, ∃ d ∈ p.dependencies, (a.indexOf d).isSome) :
    ∃ text, a.findCircularDependency = some text ∧ a.Genuine text := by
  have pos := List.length_pos_iff.mpr nonempty
  -- it is found below the first plugin
  have few : a.fresh ⟨fun _ => .unvisited, fun _ => none⟩ ≤ a.pendingPlugins.length + 1 := by
    have := Finset.card_filter_le (Finset.range a.pendingPlugins.length) fun _ =>
      VisitState.unvisited = .unvisited
    rw [Finset.card_range] at this
    exact this.trans (Nat.le_succ _)
  have outcome := dfs_outcome (.start a) pos rfl nofun few
  obtain ⟨n, hn⟩ := Nat.exists_eq_succ_of_ne_zero pos.ne'
  unfold findCircularDependency
  rw [hn, List.range_succ_eq_map]
  unfold searchFrom
  rw [if_pos rfl]
  cases hr : a.dfs (a.pendingPlugins.length + 1) 0 ⟨fun _ => .unvisited, fun _ => none⟩ with
  | none =>
    rw [hr] at outcome
    exact outcome.elim
  | some r =>
    obtain ⟨s, text⟩ := r
    have finds := dfs_finds edges (by simp) hr
    rw [hr] at outcome
    cases text with
    | none => cases finds
    | some text => exact ⟨text, rfl, outcome⟩

def Missing (a : App) : Prop :=
  ∃ p ∈ a.pendingPlugins, ∃ d ∈ p.dependencies, a.hasPlugin d = false ∧ a.hasPendingPlugin d = false

lemma missingDependency_eq_none : a.missingDependency = none ↔ ¬ a.Missing := by
  simp [missingDependency, Missing, List.findSome?_eq_none_iff]

lemma indexOf_isSome {name : Name} (h : a.hasPendingPlugin name = true) :
    (a.indexOf name).isSome := by
  obtain ⟨p, hp, hname⟩ := List.any_eq_true.mp h
  rw [indexOf, List.findIdx?_isSome]
  exact List.any_eq_true.mpr ⟨p, hp, hname⟩

lemma drainLoop_stuck (nonempty : a.pendingPlugins ≠ [])
    (stuck : ∀ p ∈ a.pendingPlugins, a.pluginDependenciesSatisfied p = false) (turns : ℕ) :
    (drainLoop (turns + 1) a).2 = some (if a.pendingPluginsSatisfiable then .circularPluginDependency
      else .missingPluginDependency) := by
  have none : a.pendingPlugins.filter a.pluginDependenciesSatisfied = [] :=
    List.filter_eq_nil_iff.mpr fun p hp => by simp [stuck p hp]
  unfold drainLoop
  rw [if_neg nonempty, List.partition_eq_filter_filter]
  dsimp only
  rw [if_pos none]

lemma pendingPluginsSatisfiable_iff : a.pendingPluginsSatisfiable = true ↔ ¬ a.Missing := by
  simp only [pendingPluginsSatisfiable, pluginDependenciesRegistered, List.all_eq_true, Missing,
    Bool.or_eq_true, not_exists, not_and]
  refine forall₂_congr fun p _ => forall₂_congr fun d _ => ?_
  cases a.hasPlugin d <;> cases a.hasPendingPlugin d <;> simp

/-- **The diagnosis.** When plugins are pending and none of them is ready, the drain ends with a result:
a dependency is missing if and only if some pending plugin depends on a name that is neither built nor
pending, and otherwise there is a circular dependency, with the names of pending plugins each of which
depends on the next one and the last of which is the first. The search for it ends for every set of
plugins. -/
theorem stuck_diagnosis (a : App) (nonempty : a.pendingPlugins ≠ [])
    (stuck : ∀ p ∈ a.pendingPlugins, a.pluginDependenciesSatisfied p = false) :
    ∃ result error, a.diagnose = some (result, error) ∧
      (∀ turns, (drainLoop (turns + 1) a).2 = some result) ∧
      (result = .missingPluginDependency ↔ a.Missing) ∧
      (¬ a.Missing → result = .circularPluginDependency ∧ ∃ cycle, a.Cycle cycle ∧
        error = "circular plugin dependency detected: ".toList ++ pathText (cycle.map Plugin.name)) ∧
      (∃ text, a.findCircularDependency = some text) := by
  obtain ⟨text, htext, genuine⟩ := findCircularDependency_spec a
  have drains := drainLoop_stuck nonempty stuck
  unfold diagnose
  cases hm : a.missingDependency with
  | some missing =>
    have missed : a.Missing := by
      by_contra hnot
      rw [missingDependency_eq_none.mpr hnot] at hm
      cases hm
    refine ⟨_, _, rfl, fun turns => ?_, iff_of_true rfl missed, fun h => absurd missed h, text, htext⟩
    rw [drains, if_neg (fun h => pendingPluginsSatisfiable_iff.mp h missed)]
  | none =>
    have closed := missingDependency_eq_none.mp hm
    have edges : ∀ p ∈ a.pendingPlugins, ∃ d ∈ p.dependencies, (a.indexOf d).isSome := by
      intro p hp
      have hnot := stuck p hp
      rw [pluginDependenciesSatisfied, List.all_eq_false] at hnot
      obtain ⟨d, hd, unbuilt⟩ := hnot
      refine ⟨d, hd, indexOf_isSome ?_⟩
      by_contra pending
      exact closed ⟨p, hp, d, hd, by simpa using unbuilt, by simpa using pending⟩
    obtain ⟨text, htext, genuine⟩ := findCircularDependency_finds nonempty edges
    obtain ⟨cycle, hcycle, htext'⟩ := genuine.cycle
    rw [htext, Option.map_some, if_neg genuine.ne_nil]
    refine ⟨_, _, rfl, fun turns => ?_, iff_of_false nofun closed,
      fun _ => ⟨rfl, cycle, hcycle, by rw [htext']⟩, text, rfl⟩
    rw [drains, if_pos (pendingPluginsSatisfiable_iff.mpr closed)]

def knot : App :=
  ⟨[], [⟨['a'], false, false, false, [['b']]⟩, ⟨['b'], false, false, false, [['a']]⟩], .created, [], []⟩

/-- The error names both of them. -/
theorem stuck_diagnosis_knot : ∃ result error, knot.diagnose = some (result, error) ∧
    result = .circularPluginDependency := by
  obtain ⟨result, error, h, -, -, circular, -⟩ := stuck_diagnosis knot nofun (by decide)
  exact ⟨result, error, h, (circular (by simp [Missing, knot, hasPlugin, hasPendingPlugin])).1⟩

end App

end PulseEngine.Application
