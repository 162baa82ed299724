import PulseEngine.Asset.Basic

/-!
# What the asset registry accepts

The registry of `asset_registry.cpp` keeps maps for its lookups. Over them stand the loaders that were accepted: a loader
is refused only because of what it claims, and a lookup gives the accepted loader that claims what is looked for.
-/

namespace PulseEngine.Asset

/-- A call of `AssetRegistry::register_type` or `AssetRegistry::register_loader`. -/
inductive Registration where
  | type (desc : AssetTypeDesc)
  | loader (desc : AssetLoaderDesc)

/-- Results of calls in their order, with the state that is left. -/
def answers {σ α β : Type} (step : σ → α → β × σ) : σ → List α → List β × σ
  | s, [] => ([], s)
  | s, a :: calls =>
    let (answer, s) := step s a
    let (rest, s) := answers step s calls
    (answer :: rest, s)

def AssetRegistry.register (registry : AssetRegistry) : Registration → Result × AssetRegistry
  | .type desc => registry.registerType desc
  | .loader desc => registry.registerLoader desc

namespace AssetLoaderDesc

/-- The extensions that the registry knows a loader under. -/
def claims (desc : AssetLoaderDesc) : List Path := AssetIo.parseExtensions desc.extensions

/-- The loader that the registry makes. -/
def made (desc : AssetLoaderDesc) : AssetLoader := ⟨desc, desc.claims⟩

/-- A loader is looked up by an extension, or by its identifier if it has none. -/
def Answers (desc : AssetLoaderDesc) (typeId : TypeId) (extension : Path) : Prop :=
  desc.typeId = typeId ∧ extension ∈ desc.claims

def Builds (desc : AssetLoaderDesc) (typeId : TypeId) (name : Path) : Prop :=
  desc.typeId = typeId ∧ desc.claims = [] ∧ desc.loaderIdentifier.getD [] = name

/-- Two loaders that a lookup could not tell apart. -/
def Collides (desc other : AssetLoaderDesc) : Prop :=
  (∃ extension ∈ desc.claims, other.Answers desc.typeId extension) ∨
    desc.claims = [] ∧ other.Builds desc.typeId (desc.loaderIdentifier.getD [])

instance (desc : AssetLoaderDesc) (typeId : TypeId) (extension : Path) : Decidable (desc.Answers typeId extension) :=
  inferInstanceAs (Decidable (_ ∧ _))

instance (desc : AssetLoaderDesc) (typeId : TypeId) (name : Path) : Decidable (desc.Builds typeId name) :=
  inferInstanceAs (Decidable (_ ∧ _ ∧ _))

instance (desc other : AssetLoaderDesc) : Decidable (desc.Collides other) := inferInstanceAs (Decidable (_ ∨ _))

end AssetLoaderDesc

/-- What was accepted: the identifiers of types, and loaders of them. -/
structure Accepted where
  types : List TypeId
  loaders : List AssetLoaderDesc

/-- A registration is refused for what is wrong with it, and else for what was accepted before. -/
def Accepted.register (accepted : Accepted) : Registration → Result × Accepted
  | .type desc =>
    if desc.typeId = 0 ∨ !desc.headerMatches ∨ desc.size = 0 ∨ !isPowerOfTwoAlignment desc.align then
      (.errorInvalidArgument, accepted)
    else if desc.typeId ∈ accepted.types then (.errorInvalidState, accepted)
    else (.ok, { accepted with types := desc.typeId :: accepted.types })
  | .loader desc =>
    if !AssetRegistry.loaderDescIsValid desc then (.errorInvalidArgument, accepted)
    else if desc.typeId ∉ accepted.types then (.errorNotFound, accepted)
    else if ∃ other ∈ accepted.loaders, desc.Collides other then (.errorInvalidState, accepted)
    else (.ok, { accepted with loaders := desc :: accepted.loaders })

namespace AssetRegistry

variable {registry : AssetRegistry} {accepted : Accepted}

/-- The maps of a type have the accepted loaders of it. -/
structure Holds (typeId : TypeId) (type : AssetType) (loaders : List AssetLoaderDesc) : Prop where
  extension : ∀ e l, type.findExtensionLoader e = some l ↔ ∃ desc ∈ loaders, desc.Answers typeId e ∧ l = desc.made
  builder : ∀ n l, type.findBuilderLoader n = some l ↔ ∃ desc ∈ loaders, desc.Builds typeId n ∧ l = desc.made

/-- The registry has the accepted types with their loaders. -/
structure Represents (registry : AssetRegistry) (accepted : Accepted) : Prop where
  types : ∀ typeId, (registry.findType typeId).isSome ↔ typeId ∈ accepted.types
  holds : ∀ typeId type, registry.findType typeId = some type → Holds typeId type accepted.loaders
  known : ∀ desc ∈ accepted.loaders, desc.typeId ∈ accepted.types

/-! ## Maps -/

section

variable {K V : Type} [BEq K] [LawfulBEq K] [DecidableEq K]

lemma lookup_set (xs : List (K × V)) (k k' : K) (v : V) :
    (xs.map fun entry => if entry.1 = k then (entry.1, v) else entry).lookup k' =
      if k' = k then (xs.lookup k').map fun _ => v else xs.lookup k' := by
  induction xs with
  | nil => split_ifs <;> rfl
  | cons entry xs ih =>
    obtain ⟨key, value⟩ := entry
    rw [List.map_cons]
    by_cases same : k' = key
    · subst same
      split_ifs with hk <;> simp [List.lookup_cons_self]
    · have other : (k' == key) = false := beq_false_of_ne same
      split_ifs at ih ⊢ <;> simp [List.lookup_cons, other, ih]

/-- Keys that are new all get one value. -/
lemma lookup_claimed {xs : List (K × V)} {ks : List K} {k : K} {v l : V} (fresh : ∀ key ∈ ks, xs.lookup key = none) :
    (xs ++ ks.map fun key => (key, v)).lookup k = some l ↔ k ∈ ks ∧ l = v ∨ xs.lookup k = some l := by
  have claimed : (ks.map fun key => (key, v)).lookup k = if k ∈ ks then some v else none := by
    clear fresh
    induction ks with
    | nil => rfl
    | cons key ks ih =>
      rw [List.map_cons, List.lookup_cons, ih]
      by_cases same : k = key
      · simp [same]
      · rw [beq_false_of_ne same]
        simp [same]
  rw [List.lookup_append, claimed]
  by_cases mem : k ∈ ks
  · rw [if_pos mem, fresh k mem]
    simp [mem, eq_comm]
  · rw [if_neg mem, Option.or_none]
    simp [mem]

end

/-! ## Registrations -/

lemma findType_registered {typeId : TypeId} {type : AssetType} {desc : AssetTypeDesc}
    (new : registry.findType desc.typeId = none) :
    (AssetRegistry.mk (registry.types ++ [(desc.typeId, type)])).findType typeId =
      if typeId = desc.typeId then some type else registry.findType typeId := by
  rw [findType, List.lookup_append]
  by_cases same : typeId = desc.typeId
  · subst same
    rw [if_pos rfl, show registry.types.lookup desc.typeId = none from new, List.lookup_cons_self]
    rfl
  · rw [if_neg same, List.lookup_cons, beq_false_of_ne same]
    exact Option.or_none

lemma findType_set {typeId typeId' : TypeId} {type : AssetType} :
    (AssetRegistry.mk (registry.types.map fun entry => if entry.1 = typeId then (entry.1, type) else entry)).findType
      typeId' = if typeId' = typeId then (registry.findType typeId').map fun _ => type else registry.findType typeId' :=
  lookup_set _ _ _ _

/-- A new type has no loaders, and none is accepted for it. -/
lemma Represents.register_type (h : Represents registry accepted) (desc : AssetTypeDesc) :
    (registry.register (.type desc)).1 = (accepted.register (.type desc)).1 ∧
      Represents (registry.register (.type desc)).2 (accepted.register (.type desc)).2 := by
  rw [register, registerType, Accepted.register]
  split
  · exact ⟨rfl, h⟩
  rw [if_congr (h.types desc.typeId) rfl rfl]
  split
  · exact ⟨rfl, h⟩
  rename_i new
  have missing : registry.findType desc.typeId = none :=
    Option.not_isSome_iff_eq_none.mp fun some => new ((h.types _).mp some)
  refine ⟨rfl, fun typeId => ?_, fun typeId type found => ?_, fun d mem => List.mem_cons_of_mem _ (h.known d mem)⟩
  · rw [findType_registered missing, List.mem_cons]
    split_ifs with same
    · exact iff_of_true rfl (.inl same)
    · rw [h.types]
      exact (or_iff_right same).symm
  · rw [findType_registered missing] at found
    split_ifs at found with same
    · cases found
      subst same
      have none : ∀ d ∈ accepted.loaders, d.typeId ≠ desc.typeId := fun d mem same => new (same ▸ h.known d mem)
      exact ⟨fun e l => iff_of_false nofun fun ⟨d, mem, answers, _⟩ => none d mem answers.1,
        fun n l => iff_of_false nofun fun ⟨d, mem, builds, _⟩ => none d mem builds.1⟩
    · exact h.holds typeId type found

/-- **A type takes a loader** unless an accepted one of it collides. -/
lemma Holds.addLoader {type : AssetType} {loaders : List AssetLoaderDesc} (desc : AssetLoaderDesc)
    (h : Holds desc.typeId type loaders) :
    if ∃ other ∈ loaders, desc.Collides other then type.addLoader desc desc.claims = (.errorInvalidState, type)
    else ∃ type', type.addLoader desc desc.claims = (.ok, type') ∧ Holds desc.typeId type' (desc :: loaders) := by
  rw [AssetType.addLoader]
  by_cases builder : desc.claims = []
  · have taken : (type.builderLoaders.lookup (desc.loaderIdentifier.getD [])).isSome ↔
        ∃ other ∈ loaders, desc.Collides other := by
      rw [Option.isSome_iff_exists]
      constructor
      · rintro ⟨l, found⟩
        obtain ⟨other, mem, builds, -⟩ := (h.builder _ _).mp found
        exact ⟨other, mem, .inr ⟨builder, builds⟩⟩
      · rintro ⟨other, mem, ⟨e, mem', -⟩ | ⟨-, builds⟩⟩
        · rw [builder] at mem'
          cases mem'
        · exact ⟨other.made, (h.builder _ _).mpr ⟨other, mem, builds, rfl⟩⟩
    rw [if_pos builder, if_congr taken rfl rfl]
    split
    · rfl
    refine ⟨_, rfl, fun e l => ?_, fun n l => ?_⟩
    · rw [List.exists_mem_cons_iff, ← h.extension]
      refine (or_iff_right fun both => ?_).symm
      have mem := both.1.2
      rw [builder] at mem
      cases mem
    · rename_i free
      have fresh : ∀ name ∈ [desc.loaderIdentifier.getD []], type.builderLoaders.lookup name = none := fun name mem => by
        rw [List.mem_singleton.mp mem]
        exact Option.not_isSome_iff_eq_none.mp fun some => free (taken.mp some)
      rw [List.exists_mem_cons_iff, ← h.builder]
      refine (lookup_claimed fresh).trans (or_congr_left (and_congr_left' ?_))
      rw [List.mem_singleton]
      exact ⟨fun same => ⟨rfl, builder, same.symm⟩, fun builds => builds.2.2.symm⟩
  · have taken : type.hasLoaderForAny desc.claims ↔ ∃ other ∈ loaders, desc.Collides other := by
      rw [AssetType.hasLoaderForAny, List.any_eq_true]
      constructor
      · rintro ⟨e, claimed, found⟩
        obtain ⟨l, found⟩ := Option.isSome_iff_exists.mp found
        obtain ⟨other, mem, answers, -⟩ := (h.extension _ _).mp found
        exact ⟨other, mem, .inl ⟨e, claimed, answers⟩⟩
      · rintro ⟨other, mem, ⟨e, claimed, answers⟩ | ⟨none, -⟩⟩
        · exact ⟨e, claimed, Option.isSome_iff_exists.mpr ⟨other.made, (h.extension _ _).mpr ⟨other, mem, answers, rfl⟩⟩⟩
        · exact absurd none builder
    rw [if_neg builder, if_congr taken rfl rfl]
    split
    · rfl
    rename_i free
    refine ⟨_, rfl, fun e l => ?_, fun n l => ?_⟩
    · have fresh : ∀ e ∈ desc.claims, type.extensionLoaders.lookup e = none := fun e claimed =>
        Option.not_isSome_iff_eq_none.mp fun some => free (taken.mp (List.any_eq_true.mpr ⟨e, claimed, some⟩))
      rw [List.exists_mem_cons_iff, ← h.extension]
      refine (lookup_claimed fresh).trans (or_congr_left (and_congr_left' ?_))
      exact ⟨fun claimed => ⟨rfl, claimed⟩, fun answers => answers.2⟩
    · rw [List.exists_mem_cons_iff, ← h.builder]
      exact (or_iff_right fun both => builder both.1.2.1).symm

/-- Loaders of other types say nothing about a type. -/
lemma Holds.other {typeId : TypeId} {type : AssetType} {loaders : List AssetLoaderDesc} {desc : AssetLoaderDesc}
    (h : Holds typeId type loaders) (ne : desc.typeId ≠ typeId) : Holds typeId type (desc :: loaders) := by
  refine ⟨fun e l => ?_, fun n l => ?_⟩
  · rw [List.exists_mem_cons_iff, ← h.extension]
    exact (or_iff_right fun both => ne both.1.1).symm
  · rw [List.exists_mem_cons_iff, ← h.builder]
    exact (or_iff_right fun both => ne both.1.1).symm

/-- The type of a loader is exchanged in the registry. -/
lemma Represents.exchange (h : Represents registry accepted) {typeId : TypeId} {type type' : AssetType}
    {loaders : List AssetLoaderDesc} (found : registry.findType typeId = some type) (holds : Holds typeId type' loaders)
    (others : ∀ t u, t ≠ typeId → Holds t u accepted.loaders → Holds t u loaders)
    (known : ∀ d ∈ loaders, d.typeId ∈ accepted.types) :
    Represents ⟨registry.types.map fun entry => if entry.1 = typeId then (entry.1, type') else entry⟩
      { accepted with loaders := loaders } := by
  have at_self : (registry.findType typeId).map (fun _ => type') = some type' := by rw [found]; rfl
  refine ⟨fun t => ?_, fun t u at_t => ?_, known⟩
  · rw [findType_set, ← h.types]
    split_ifs with same
    · rw [same, at_self, found]
      exact iff_of_true rfl rfl
    · exact Iff.rfl
  · rw [findType_set] at at_t
    split_ifs at at_t with same
    · subst same
      rw [at_self] at at_t
      cases at_t
      exact holds
    · exact others t u same (h.holds t u at_t)

lemma Represents.register_loader (h : Represents registry accepted) (desc : AssetLoaderDesc) :
    (registry.register (.loader desc)).1 = (accepted.register (.loader desc)).1 ∧
      Represents (registry.register (.loader desc)).2 (accepted.register (.loader desc)).2 := by
  rw [register, registerLoader, Accepted.register]
  split
  · exact ⟨rfl, h⟩
  cases found : registry.findType desc.typeId with
  | none =>
    have unknown : desc.typeId ∉ accepted.types := fun mem => by
      have some := (h.types _).mpr mem
      rw [found] at some
      cases some
    rw [if_pos unknown]
    exact ⟨rfl, h⟩
  | some type =>
    have known : desc.typeId ∈ accepted.types := (h.types _).mp (by rw [found]; rfl)
    have holds := h.holds _ _ found
    have added := holds.addLoader desc
    rw [AssetLoaderDesc.claims] at added
    rw [if_neg (not_not.mpr known)]
    split at added
    · rename_i collides
      rw [if_pos collides]
      simp only [added]
      exact ⟨trivial, h.exchange found holds (fun _ _ _ holds => holds) h.known⟩
    · rename_i free
      obtain ⟨type', ok, holds'⟩ := added
      rw [if_neg free]
      simp only [ok]
      refine ⟨trivial, h.exchange found holds' (fun t u ne holds => holds.other ne.symm) fun d mem => ?_⟩
      rcases List.mem_cons.mp mem with rfl | mem
      · exact known
      · exact h.known d mem

/-- A registry that represents what was accepted answers as it does, and goes on to. -/
lemma Represents.answers (calls : List Registration) (h : Represents registry accepted) :
    (answers register registry calls).1 = (answers Accepted.register accepted calls).1 ∧
      Represents (Asset.answers register registry calls).2 (Asset.answers Accepted.register accepted calls).2 := by
  induction calls generalizing registry accepted with
  | nil => exact ⟨rfl, h⟩
  | cons call calls ih =>
    have step : (registry.register call).1 = (accepted.register call).1 ∧
        Represents (registry.register call).2 (accepted.register call).2 := by
      cases call with
      | type desc => exact h.register_type desc
      | loader desc => exact h.register_loader desc
    obtain ⟨results, rest⟩ := ih step.2
    exact ⟨congrArg₂ List.cons step.1 results, rest⟩

/-! ## Lookups -/

lemma ne_nil_of_claimed {current rest e : Path} (h : e ∈ AssetIo.parseExtensionsFrom current rest) : e ≠ [] := by
  induction current, rest using AssetIo.parseExtensionsFrom.induct with
  | case1 current => exact of_decide_eq_true (List.mem_filter.mp h).2
  | case2 current rest ih =>
    rcases List.mem_append.mp h with last | more
    · exact of_decide_eq_true (List.mem_filter.mp last).2
    · exact ih more
  | case3 current c rest other ih =>
    rw [AssetIo.parseExtensionsFrom] at h
    · exact ih h
    · exact other

lemma ne_nil_of_answers {desc : AssetLoaderDesc} {typeId : TypeId} {e : Path} (h : desc.Answers typeId e) : e ≠ [] := by
  have claimed := h.2
  rw [AssetLoaderDesc.claims, AssetIo.parseExtensions.eq_def] at claimed
  split at claimed
  · cases claimed
  · exact ne_nil_of_claimed claimed

lemma Represents.findLoader_iff (h : Represents registry accepted) {typeId : TypeId} {path : Path} {l : AssetLoader} :
    registry.findLoader typeId path = some l ↔
      ∃ desc ∈ accepted.loaders, desc.Answers typeId (AssetIo.extensionFromPath path) ∧ l = desc.made := by
  rw [findLoader]
  split_ifs with nil
  · exact iff_of_false nofun fun ⟨_, _, answers, _⟩ => ne_nil_of_answers answers nil
  · cases found : registry.findType typeId with
    | none =>
      refine iff_of_false nofun fun ⟨desc, mem, answers, _⟩ => ?_
      have some := (h.types _).mpr (h.known desc mem)
      rw [answers.1, found] at some
      cases some
    | some type => exact (h.holds _ _ found).extension _ _

lemma Represents.findBuilderLoader_iff (h : Represents registry accepted) {typeId : TypeId} {name : Path}
    {l : AssetLoader} : registry.findBuilderLoader typeId name = some l ↔
      ∃ desc ∈ accepted.loaders, desc.Builds typeId name ∧ l = desc.made := by
  rw [findBuilderLoader]
  cases found : registry.findType typeId with
  | none =>
    refine iff_of_false nofun fun ⟨desc, mem, builds, _⟩ => ?_
    have some := (h.types _).mpr (h.known desc mem)
    rw [builds.1, found] at some
    cases some
  | some type => exact (h.holds _ _ found).builder _ _

lemma subset_register (accepted : Accepted) (call : Registration) :
    accepted.loaders ⊆ (accepted.register call).2.loaders := by
  cases call with
  | type desc =>
    rw [Accepted.register]
    split_ifs <;> exact fun _ mem => mem
  | loader desc =>
    rw [Accepted.register]
    split_ifs
    · exact fun _ mem => mem
    · exact fun _ mem => mem
    · exact List.subset_cons_self _ _
    · exact fun _ mem => mem

lemma subset_answers (calls : List Registration) :
    accepted.loaders ⊆ (Asset.answers Accepted.register accepted calls).2.loaders := by
  induction calls generalizing accepted with
  | nil => exact fun _ mem => mem
  | cons call calls ih => exact List.Subset.trans (subset_register accepted call) ih

/-- **The registry answers as what it accepted**, whatever is registered in whatever order. A registration has the result
that the accepted ones say, a lookup gives the one accepted loader that claims what is looked for, and goes on to give it
after more registrations. -/
theorem registry_answers (calls : List Registration) :
    let registry := (Asset.answers register init calls).2
    let accepted := (Asset.answers Accepted.register ⟨[], []⟩ calls).2
    (Asset.answers register init calls).1 = (Asset.answers Accepted.register ⟨[], []⟩ calls).1 ∧
      ∀ typeId l, (∀ path, (registry.findLoader typeId path = some l ↔ ∃ desc ∈ accepted.loaders,
            desc.Answers typeId (AssetIo.extensionFromPath path) ∧ l = desc.made) ∧
          (registry.findLoader typeId path = some l →
            ∀ more, (Asset.answers register registry more).2.findLoader typeId path = some l)) ∧
        ∀ name, (registry.findBuilderLoader typeId name = some l ↔
            ∃ desc ∈ accepted.loaders, desc.Builds typeId name ∧ l = desc.made) ∧
          (registry.findBuilderLoader typeId name = some l →
            ∀ more, (Asset.answers register registry more).2.findBuilderLoader typeId name = some l) := by
  have start : Represents init ⟨[], []⟩ :=
    ⟨fun _ => iff_of_false nofun nofun, (fun _ _ found => nomatch found), fun _ mem => nomatch mem⟩
  obtain ⟨results, now⟩ := start.answers calls
  refine ⟨results, fun typeId l => ⟨fun path => ⟨now.findLoader_iff, fun found more => ?_⟩,
    fun name => ⟨now.findBuilderLoader_iff, fun found more => ?_⟩⟩⟩
  · obtain ⟨desc, mem, answers⟩ := now.findLoader_iff.mp found
    exact (now.answers more).2.findLoader_iff.mpr ⟨desc, subset_answers more mem, answers⟩
  · obtain ⟨desc, mem, builds⟩ := now.findBuilderLoader_iff.mp found
    exact (now.answers more).2.findBuilderLoader_iff.mpr ⟨desc, subset_answers more mem, builds⟩

end AssetRegistry

end PulseEngine.Asset
