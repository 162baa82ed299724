import PulseEngine.Graphics.ResourcePool

/-!
# Resources are conserved

Every call on a pool moves resources between the callers, the pools and the grave (`Pools.Sound`),
and a pool that does not keep what it hands out has each of them in one place. What a new frame
destroys was not used for more frames than the pool waits (`Pools.Idle`).
-/

namespace PulseEngine.Graphics

open Library

variable {D R : Type*}

def Chain.held (chain : Chain D) : List (D × ℕ) :=
  chain.flatMap fun pool => pool.resources.map fun entry => (entry.key, entry.resource)

def Chain.Front (chain : Chain D) : Prop := ∀ pool ∈ chain.dropLast, pool.resources = []

structure ResourcePool.Evolves (pool pool' : ResourcePool D) : Prop where
  limit : pool'.frameBeforeOutOfData = pool.frameBeforeOutOfData
  entries : ∀ entry ∈ pool'.resources, entry ∈ pool.resources ∨ entry.stamp = pool.timestamp

def ResourcePool.Stays (pool pool' : ResourcePool D) : Prop :=
  pool.Evolves pool' ∧ pool'.timestamp = pool.timestamp

variable {kind : PoolKind} {pool pool' : ResourcePool D} {upstream chain chain' above : Chain D}
  {created created' : List (Created D R)} {destroyed : List ℕ} {descriptor : D}
  {object : R} {choice resource at' : ℕ}

lemma ResourcePool.Stays.refl (pool : ResourcePool D) : pool.Stays pool :=
  ⟨⟨rfl, fun _ => .inl⟩, rfl⟩

lemma ResourcePool.Stays.trans {pool₁ pool₂ pool₃ : ResourcePool D} (h : pool₁.Stays pool₂)
    (h' : pool₂.Stays pool₃) : pool₁.Stays pool₃ := by
  refine ⟨⟨h'.1.limit.trans h.1.limit, fun entry hm => ?_⟩, h'.2.trans h.2⟩
  rcases h'.1.entries entry hm with hm | hstamp
  · exact h.1.entries entry hm
  · exact .inr (hstamp.trans h.2)

lemma ResourcePool.Stays.insert (pool : ResourcePool D) (descriptor : D) (resource : ℕ) :
    pool.Stays (pool.insert descriptor resource) := by
  refine ⟨⟨rfl, fun entry hm => ?_⟩, rfl⟩
  rcases List.mem_cons.mp hm with rfl | hm
  · exact .inr rfl
  · exact .inl hm

lemma Chain.stays_trans {chain₁ chain₂ chain₃ : Chain D}
    (h : List.Forall₂ ResourcePool.Stays chain₁ chain₂)
    (h' : List.Forall₂ ResourcePool.Stays chain₂ chain₃) :
    List.Forall₂ ResourcePool.Stays chain₁ chain₃ := by
  induction h generalizing chain₃ with
  | nil =>
    cases h'
    exact .nil
  | cons hpool _ ih =>
    cases h' with
    | cons hpool' hrest => exact .cons (hpool.trans hpool') (ih hrest)

lemma Chain.stays_refl (chain : Chain D) : List.Forall₂ ResourcePool.Stays chain chain :=
  List.forall₂_same.mpr fun pool _ => .refl pool

@[simp]
lemma Chain.held_cons : Chain.held (pool :: upstream) =
    (pool.resources.map fun entry => (entry.key, entry.resource)) ++ Chain.held upstream := rfl

@[simp]
lemma Chain.held_append : Chain.held (above ++ chain) = Chain.held above ++ Chain.held chain :=
  List.flatMap_append

lemma Chain.pooled_eq (chain : Chain D) : Chain.pooled chain = (Chain.held chain).map (·.2) := by
  rw [Chain.pooled, Chain.held, List.map_flatMap]
  simp only [List.map_map, Function.comp_def]

section Get

variable [BEq D]

lemma ResourcePool.find_key {i : Fin pool.resources.length}
    (h : pool.find descriptor choice = some i) :
    ((pool.resources.get i).key == descriptor) = true := by
  have hm := List.mem_of_getElem? h
  exact (List.mem_filter.mp hm).2

omit [BEq D] in
lemma ResourcePool.hand_keep (hkeep : kind.neverRelease = true)
    (i : Fin pool.resources.length) :
    ((pool.hand kind i).resources.map fun entry => (entry.key, entry.resource)) =
      pool.resources.map fun entry => (entry.key, entry.resource) := by
  rw [ResourcePool.hand, if_pos hkeep]
  dsimp only
  have hlt : (i : ℕ) < (pool.resources.map fun entry => (entry.key, entry.resource)).length := by
    rw [List.length_map]
    exact i.isLt
  have hentry : (pool.resources[i].key, pool.resources[i].resource) =
      (pool.resources.map fun entry => (entry.key, entry.resource))[(i : ℕ)] := by
    rw [List.getElem_map]
    rfl
  rw [List.map_set, hentry]
  exact List.set_getElem_self _

omit [BEq D] in
lemma ResourcePool.hand_erase (hkeep : kind.neverRelease = false)
    (i : Fin pool.resources.length) :
    (pool.resources.map fun entry => (entry.key, entry.resource)).Perm
      (((pool.resources.get i).key, (pool.resources.get i).resource) ::
        (pool.hand kind i).resources.map fun entry => (entry.key, entry.resource)) := by
  rw [ResourcePool.hand, if_neg (by simp [hkeep])]
  exact ((List.getElem_cons_eraseIdx_perm i.isLt).symm.map fun entry : PoolEntry D =>
    (entry.key, entry.resource))

omit [BEq D] in
lemma ResourcePool.hand_stays (kind : PoolKind) (pool : ResourcePool D)
    (i : Fin pool.resources.length) : pool.Stays (pool.hand kind i) := by
  rw [ResourcePool.hand]
  split
  · refine ⟨⟨rfl, fun entry hm => ?_⟩, rfl⟩
    rcases List.mem_or_eq_of_mem_set hm with hm | rfl
    · exact .inl hm
    · exact .inr rfl
  · exact ⟨⟨rfl, fun entry hm => .inl (List.mem_of_mem_eraseIdx hm)⟩, rfl⟩

/-- What `getResource` did: it found a resource with the descriptor, or had one made. -/
inductive Chain.Got (kind : PoolKind) (descriptor : D) (object : R) (created : List (Created D R))
    (chain : Chain D) : Chain D → List (Created D R) → ℕ → Prop
  | found {chain' : Chain D} {key : D} {resource : ℕ} (same : (key == descriptor) = true)
      (mem : (key, resource) ∈ Chain.held chain)
      (keep : kind.neverRelease = true → Chain.held chain' = Chain.held chain)
      (take : kind.neverRelease = false →
        (Chain.held chain).Perm ((key, resource) :: Chain.held chain')) :
      Got kind descriptor object created chain chain' created resource
  | made {chain' : Chain D}
      (keep : kind.neverRelease = true →
        (Chain.held chain').Perm ((descriptor, created.length) :: Chain.held chain))
      (take : kind.neverRelease = false → Chain.held chain' = Chain.held chain) :
      Got kind descriptor object created chain chain' (created ++ [⟨descriptor, object⟩])
        created.length

/-- **`getResource`.** It finds or makes, touches nothing else, and leaves the pools before the last
one empty if they keep what they hand out. -/
lemma Chain.getResource_spec
    (h : Chain.getResource kind descriptor choice object created chain =
      some (chain', created', resource)) :
    Chain.Got kind descriptor object created chain chain' created' resource ∧
      List.Forall₂ ResourcePool.Stays chain chain' ∧
        (kind.neverRelease = true → Chain.Front chain → Chain.Front chain') := by
  induction chain generalizing chain' with
  | nil => exact nomatch h
  | cons pool upstream ih =>
    unfold Chain.getResource at h
    split at h
    next i found =>
      cases h
      refine ⟨.found (ResourcePool.find_key found) ?_ ?_ ?_, ?_, ?_⟩
      · rw [Chain.held_cons]
        exact List.mem_append_left _ (List.mem_map_of_mem (List.getElem_mem _))
      · intro hkeep
        rw [Chain.held_cons, Chain.held_cons, ResourcePool.hand_keep hkeep]
      · intro hkeep
        rw [Chain.held_cons, Chain.held_cons, ← List.cons_append]
        exact (ResourcePool.hand_erase hkeep i).append_right _
      · exact .cons (ResourcePool.hand_stays kind pool i) (Chain.stays_refl upstream)
      · intro hkeep hfront pool' hm
        cases upstream with
        | nil => exact absurd hm List.not_mem_nil
        | cons up rest =>
          -- a pool before the last one is empty, so that nothing was found in it
          have hempty : pool.resources = [] := hfront pool List.mem_cons_self
          exact absurd i.isLt (by simp [hempty])
    next =>
      split at h
      next =>
        cases h
        refine ⟨.made ?_ ?_, ?_, fun _ _ _ hm => absurd hm List.not_mem_nil⟩
        · intro hkeep
          rw [if_pos hkeep]
          exact List.Perm.refl _
        · intro hkeep
          rw [if_neg (by simp [hkeep])]
        · refine .cons ?_ .nil
          split
          · exact .insert pool descriptor created.length
          · exact .refl pool
      next up rest hnext =>
        obtain ⟨⟨chain'', created'', resource'⟩, hup, heq⟩ := Option.map_eq_some_iff.mp h
        cases heq
        obtain ⟨hgot, hstays, hfront⟩ := ih hup
        refine ⟨?_, .cons (.refl pool) hstays, ?_⟩
        · cases hgot with
          | found same mem keep take =>
            refine .found same ?_ ?_ ?_
            · rw [Chain.held_cons]
              exact List.mem_append_right _ mem
            · intro hkeep
              rw [Chain.held_cons, Chain.held_cons, keep hkeep]
            · intro hkeep
              rw [Chain.held_cons, Chain.held_cons]
              exact ((take hkeep).append_left _).trans List.perm_middle
          | made keep take =>
            refine .made ?_ ?_
            · intro hkeep
              rw [Chain.held_cons, Chain.held_cons]
              exact ((keep hkeep).append_left _).trans List.perm_middle
            · intro hkeep
              rw [Chain.held_cons, Chain.held_cons, take hkeep]
        · intro hkeep hempty pool' hm
          obtain ⟨up', rest', rfl⟩ : ∃ up' rest', chain'' = up' :: rest' := by
            cases hstays with
            | cons _ _ => exact ⟨_, _, rfl⟩
          rw [List.dropLast_cons_cons] at hm
          rcases List.mem_cons.mp hm with rfl | hm
          · exact hempty _ List.mem_cons_self
          · refine hfront hkeep (fun pool hm => hempty pool ?_) pool' hm
            exact List.mem_cons_of_mem _ hm

end Get

section Other

lemma Chain.releaseResource_spec
    (h : Chain.releaseResource kind created destroyed resource chain = some chain') :
    (kind.neverRelease = true ∧ chain' = chain ∨
      kind.neverRelease = false ∧ ∃ own, created[resource]? = some own ∧
        Chain.held chain' = (own.descriptor, resource) :: Chain.held chain) ∧
      List.Forall₂ ResourcePool.Stays chain chain' := by
  cases chain with
  | nil => exact nomatch h
  | cons pool upstream =>
    rw [Chain.releaseResource] at h
    split at h
    next hkeep =>
      cases h
      exact ⟨.inl ⟨hkeep, rfl⟩, Chain.stays_refl _⟩
    next hkeep =>
      split at h
      next => exact nomatch h
      next =>
        obtain ⟨own, hown, rfl⟩ := Option.map_eq_some_iff.mp h
        refine ⟨.inr ⟨by simpa using hkeep, own, hown, rfl⟩, ?_⟩
        exact .cons (.insert pool own.descriptor resource) (Chain.stays_refl upstream)

lemma Chain.newFrame_spec {gone : List ℕ} (h : Chain.newFrame kind chain = some (chain', gone)) :
    ∃ pool upstream pool', chain = pool :: upstream ∧ chain' = pool' :: upstream ∧
      pool.Evolves pool' ∧ pool'.timestamp = (pool.timestamp + 1) % 2 ^ 64 ∧
      (Chain.pooled chain).Perm (gone ++ Chain.pooled chain') ∧
      (∀ entry ∈ pool'.resources, entry ∈ pool.resources) ∧
      ∀ resource ∈ gone, ∃ entry ∈ pool.resources, entry.resource = resource ∧
        (entry.stamp + pool.frameBeforeOutOfData) % 2 ^ 64 < (pool.timestamp + 1) % 2 ^ 64 := by
  cases chain with
  | nil => exact nomatch h
  | cons pool upstream =>
    rw [Chain.newFrame] at h
    split at h
    next =>
      cases h
      refine ⟨pool, upstream, _, rfl, rfl, ⟨rfl, fun entry hm => ?_⟩, rfl, ?_, ?_, ?_⟩
      · exact .inl (List.mem_of_mem_filter hm)
      · rw [Chain.pooled, Chain.pooled, List.flatMap_cons, List.flatMap_cons, ← List.append_assoc]
        refine List.Perm.append_right _ ?_
        rw [← List.map_append]
        refine (List.Perm.symm ?_).map _
        simpa using List.filter_append_perm _ _
      · exact fun entry hm => List.mem_of_mem_filter hm
      · intro resource hm
        obtain ⟨entry, hentry, rfl⟩ := List.mem_map.mp hm
        obtain ⟨hentry, hout⟩ := List.mem_filter.mp hentry
        exact ⟨entry, hentry, rfl, by simpa [ResourcePool.outOfDate] using hout⟩
    next =>
      cases h
      exact ⟨pool, upstream, _, rfl, rfl, ⟨rfl, fun _ => .inl⟩, rfl, List.Perm.refl _,
        fun _ => id, fun _ hm => absurd hm List.not_mem_nil⟩

def Chain.Keyed (created : List (Created D R)) (p : D × ℕ) : Prop :=
  ∃ own, created[p.2]? = some own ∧ p.1 = own.descriptor

lemma Chain.releaseAll_spec (hkeep : kind.neverRelease = false) {resources : List ℕ}
    (h : resources.foldlM (fun upstream resource =>
      Chain.releaseResource kind created destroyed resource upstream) chain = some chain') :
    (Chain.pooled chain').Perm (resources ++ Chain.pooled chain) ∧
      (∀ p ∈ Chain.held chain', p ∈ Chain.held chain ∨ Chain.Keyed created p) ∧
        List.Forall₂ ResourcePool.Stays chain chain' := by
  induction resources generalizing chain with
  | nil =>
    cases h
    exact ⟨List.Perm.refl _, fun _ => .inl, Chain.stays_refl _⟩
  | cons resource resources ih =>
    rw [List.foldlM_cons] at h
    obtain ⟨chain₁, hone, hrest⟩ := Option.bind_eq_some_iff.mp h
    obtain ⟨⟨hnot, -⟩ | ⟨-, own, hown, hheld⟩, hstays⟩ := Chain.releaseResource_spec hone
    · exact absurd (hkeep.symm.trans hnot) Bool.false_ne_true
    · obtain ⟨hperm, hkeyed, hstays'⟩ := ih hrest
      refine ⟨?_, ?_, Chain.stays_trans hstays hstays'⟩
      · rw [Chain.pooled_eq chain₁, hheld, List.map_cons, ← Chain.pooled_eq] at hperm
        exact hperm.trans List.perm_middle
      · intro p hp
        rcases hkeyed p hp with hp | hp
        · rw [hheld] at hp
          rcases List.mem_cons.mp hp with rfl | hp
          · exact .inr ⟨own, hown, rfl⟩
          · exact .inl hp
        · exact .inr hp

lemma Chain.destroy_spec {gone : List ℕ} (hfront : kind.neverRelease = true → Chain.Front chain)
    (h : Chain.destroy kind created destroyed chain = some (chain', gone)) :
    (Chain.pooled chain).Perm (gone ++ Chain.pooled chain') ∧
      (∀ p ∈ Chain.held chain', p ∈ Chain.held chain ∨ Chain.Keyed created p) ∧
        List.Forall₂ ResourcePool.Stays chain chain' ∧
          (kind.neverRelease = true → Chain.Front chain') := by
  match chain with
  | [] => exact nomatch h
  | [pool] =>
    cases h
    refine ⟨?_, ?_, .cons ⟨⟨rfl, nofun⟩, rfl⟩ .nil, fun _ _ hm => absurd hm List.not_mem_nil⟩
    · exact List.Perm.refl _
    · exact fun _ hp => absurd hp List.not_mem_nil
  | pool :: up :: rest =>
    simp only [Chain.destroy] at h
    obtain ⟨chain'', hup, heq⟩ := Option.map_eq_some_iff.mp h
    cases heq
    cases hkeep : kind.neverRelease with
    | true =>
      have hempty : pool.resources = [] := hfront hkeep pool List.mem_cons_self
      rw [hempty] at hup
      cases hup
      refine ⟨?_, ?_, .cons ⟨⟨rfl, nofun⟩, rfl⟩ (Chain.stays_refl _), ?_⟩
      · rw [Chain.pooled, List.flatMap_cons, hempty]
        exact List.Perm.refl _
      · exact fun p hp => .inl (List.mem_append_right _ hp)
      · intro _ pool' hm
        rw [List.dropLast_cons_cons] at hm
        rcases List.mem_cons.mp hm with rfl | hm
        · rfl
        · exact hfront hkeep pool' (List.mem_cons_of_mem _ hm)
    | false =>
      obtain ⟨hperm, hkeyed, hstays⟩ := Chain.releaseAll_spec hkeep hup
      refine ⟨hperm.symm, ?_, .cons ⟨⟨rfl, nofun⟩, rfl⟩ hstays, nofun⟩
      intro p hp
      rcases hkeyed p hp with hp | hp
      · exact .inl (List.mem_append_right _ hp)
      · exact .inr hp

end Other

/-- Where the resources are: those that the pools do not keep are with the callers, in a pool or
destroyed, the others in a pool or destroyed. -/
structure Pools.Sound (kind : PoolKind) (pools : Pools D R) : Prop where
  counts : ((if kind.neverRelease then [] else pools.handed) ++ Chain.pooled pools.chain ++
    pools.destroyed).Perm (List.range pools.created.length)
  keyed : ∀ p ∈ Chain.held pools.chain, Chain.Keyed pools.created p
  front : kind.neverRelease = true → Chain.Front pools.chain

def Pools.Held (kind : PoolKind) (pools : Pools D R) : PoolCall D R → Prop
  | .releaseResource _ resource => kind.neverRelease = false → resource ∈ pools.handed
  | _ => True

lemma Chain.Keyed.later {p : D × ℕ} (h : Chain.Keyed created p) (more : List (Created D R)) :
    Chain.Keyed (created ++ more) p := by
  obtain ⟨own, hown, hkey⟩ := h
  refine ⟨own, ?_, hkey⟩
  rw [List.getElem?_append_left (List.getElem?_eq_some_iff.mp hown).1]
  exact hown

lemma Chain.Front.append_iff (hne : chain ≠ []) :
    Chain.Front (above ++ chain) ↔ (∀ pool ∈ above, pool.resources = []) ∧ Chain.Front chain := by
  rw [Chain.Front, Chain.Front, List.dropLast_append_of_ne_nil hne]
  exact List.forall_mem_append

variable {pools pools' : Pools D R} {call : PoolCall D R}

lemma Pools.Sound.replace (h : pools.Sound kind) (hne : pools.chain.drop at' ≠ [])
    {rest : Chain D} {created' : List (Created D R)} {destroyed' handed' : List ℕ}
    (counts : ∀ x, (if kind.neverRelease then [] else pools.handed).count x +
      (Chain.pooled (pools.chain.drop at')).count x + pools.destroyed.count x +
        (List.range created'.length).count x =
      (if kind.neverRelease then [] else handed').count x + (Chain.pooled rest).count x +
        destroyed'.count x + (List.range pools.created.length).count x)
    (keyed : ∀ p ∈ Chain.held rest,
      p ∈ Chain.held (pools.chain.drop at') ∨ Chain.Keyed created' p)
    (extends' : pools.created <+: created')
    (stays : rest ≠ [])
    (front : kind.neverRelease = true → Chain.Front (pools.chain.drop at') → Chain.Front rest) :
    Pools.Sound kind ⟨pools.chain.take at' ++ rest, created', destroyed', handed'⟩ := by
  have hchain : pools.chain = pools.chain.take at' ++ pools.chain.drop at' :=
    (List.take_append_drop at' pools.chain).symm
  obtain ⟨more, rfl⟩ := extends'
  refine ⟨?_, ?_, ?_⟩
  · have hcounts := h.counts
    rw [hchain, Chain.pooled_eq, Chain.held_append, List.map_append, ← Chain.pooled_eq,
      ← Chain.pooled_eq] at hcounts
    rw [Chain.pooled_eq, Chain.held_append, List.map_append, ← Chain.pooled_eq,
      ← Chain.pooled_eq]
    rw [List.perm_iff_count] at hcounts ⊢
    intro x
    have hx := hcounts x
    have hx' := counts x
    simp only [List.count_append] at hx ⊢
    omega
  · intro p hp
    have hold : p ∈ Chain.held pools.chain → Chain.Keyed (pools.created ++ more) p :=
      fun hp => (h.keyed p hp).later more
    rw [Chain.held_append] at hp
    rcases List.mem_append.mp hp with hp | hp
    · refine hold ?_
      rw [hchain, Chain.held_append]
      exact List.mem_append_left _ hp
    · rcases keyed p hp with hp | hp
      · refine hold ?_
        rw [hchain, Chain.held_append]
        exact List.mem_append_right _ hp
      · exact hp
  · intro hkeep
    have hfront := h.front hkeep
    rw [hchain, Chain.Front.append_iff hne] at hfront
    rw [Chain.Front.append_iff stays]
    exact ⟨hfront.1, front hkeep hfront.2⟩

lemma Chain.ne_nil {r : ResourcePool D → ResourcePool D → Prop} (h : List.Forall₂ r chain chain')
    (hne : chain ≠ []) : chain' ≠ [] := by
  cases h with
  | nil => exact absurd rfl hne
  | cons _ _ => exact List.cons_ne_nil _ _

lemma Pools.Sound.front_drop (h : pools.Sound kind) (hne : pools.chain.drop at' ≠ []) :
    kind.neverRelease = true → Chain.Front (pools.chain.drop at') := by
  intro hkeep
  have hall := h.front hkeep
  rw [← List.take_append_drop at' pools.chain, Chain.Front.append_iff hne] at hall
  exact hall.2

lemma Chain.getResource_ne_nil [BEq D]
    (h : Chain.getResource kind descriptor choice object created chain =
      some (chain', created', resource)) : chain ≠ [] := by
  rintro rfl
  exact nomatch h

lemma Chain.destroy_ne_nil {gone : List ℕ}
    (h : Chain.destroy kind created destroyed chain = some (chain', gone)) : chain ≠ [] := by
  rintro rfl
  exact nomatch h

variable [BEq D]

lemma Pools.Sound.step (h : pools.Sound kind) (held : pools.Held kind call)
    (next : pools.step kind call = some pools') : pools'.Sound kind := by
  cases call with
  | getResource at' descriptor choice object =>
    obtain ⟨⟨chain', created', resource⟩, hget, rfl⟩ := Option.map_eq_some_iff.mp next
    obtain ⟨hgot, hstays, hfront⟩ := Chain.getResource_spec hget
    have hne := Chain.getResource_ne_nil hget
    have hrest := Chain.ne_nil hstays hne
    cases hgot with
    | found same mem keep take =>
      apply h.replace hne _ _ List.prefix_rfl hrest hfront
      · intro x
        cases hkeep : kind.neverRelease with
        | true =>
          rw [Chain.pooled_eq chain', keep hkeep, ← Chain.pooled_eq]
          simp
        | false =>
          have hcount := ((take hkeep).map (·.2)).count_eq x
          rw [List.map_cons, ← Chain.pooled_eq, ← Chain.pooled_eq, List.count_cons] at hcount
          simp only [Bool.false_eq_true, if_false, List.count_cons]
          dsimp only at hcount
          omega
      · intro p hp
        cases hkeep : kind.neverRelease with
        | true => exact .inl (keep hkeep ▸ hp)
        | false => exact .inl ((take hkeep).symm.subset (List.mem_cons_of_mem _ hp))
    | made keep take =>
      apply h.replace hne _ _ (List.prefix_append _ _) hrest hfront
      · intro x
        rw [List.length_append, List.length_singleton, List.range_succ, List.count_append,
          List.count_singleton]
        cases hkeep : kind.neverRelease with
        | true =>
          have hcount := ((keep hkeep).map (·.2)).count_eq x
          rw [List.map_cons, ← Chain.pooled_eq, ← Chain.pooled_eq, List.count_cons] at hcount
          simp only [if_true]
          dsimp only at hcount
          omega
        | false =>
          rw [Chain.pooled_eq chain', take hkeep, ← Chain.pooled_eq]
          simp only [Bool.false_eq_true, if_false, List.count_cons]
          omega
      · intro p hp
        cases hkeep : kind.neverRelease with
        | true =>
          rcases List.mem_cons.mp ((keep hkeep).subset hp) with rfl | hp
          · exact .inr ⟨_, List.getElem?_concat_length, rfl⟩
          · exact .inl hp
        | false => exact .inl (take hkeep ▸ hp)
  | releaseResource at' resource =>
    obtain ⟨chain', hrelease, rfl⟩ := Option.map_eq_some_iff.mp next
    obtain ⟨hspec, hstays⟩ := Chain.releaseResource_spec hrelease
    have hne : pools.chain.drop at' ≠ [] := by
      intro hnil
      rw [hnil] at hrelease
      exact nomatch hrelease
    apply h.replace hne _ _ List.prefix_rfl (Chain.ne_nil hstays hne)
    · intro hkeep hfront
      obtain ⟨-, rfl⟩ | ⟨hnot, -⟩ := hspec
      · exact hfront
      · exact absurd (hnot.symm.trans hkeep) Bool.false_ne_true
    · intro x
      obtain ⟨hkeep, rfl⟩ | ⟨hkeep, own, -, hheld⟩ := hspec
      · rw [if_pos hkeep, if_pos hkeep]
      · have hmem := List.perm_cons_erase (held hkeep)
        rw [Chain.pooled_eq chain', hheld, List.map_cons, ← Chain.pooled_eq, hkeep]
        have hcount := hmem.count_eq x
        rw [List.count_cons] at hcount
        simp only [Bool.false_eq_true, if_false, List.count_cons]
        omega
    · intro p hp
      obtain ⟨-, rfl⟩ | ⟨-, own, hown, hheld⟩ := hspec
      · exact .inl hp
      · rw [hheld] at hp
        rcases List.mem_cons.mp hp with rfl | hp
        · exact .inr ⟨own, hown, rfl⟩
        · exact .inl hp
  | newFrame at' =>
    obtain ⟨⟨chain', gone⟩, hframe, rfl⟩ := Option.map_eq_some_iff.mp next
    obtain ⟨pool, upstream, pool', hchain, rfl, -, -, hperm, hsub, -⟩ :=
      Chain.newFrame_spec hframe
    have hne : pools.chain.drop at' ≠ [] := by
      rw [hchain]
      exact List.cons_ne_nil _ _
    apply h.replace hne _ _ List.prefix_rfl (List.cons_ne_nil _ _)
    · intro hkeep hfront
      rw [hchain] at hfront
      cases upstream with
      | nil => exact fun _ hm => absurd hm List.not_mem_nil
      | cons up rest =>
        intro other hm
        rw [List.dropLast_cons_cons] at hm
        rcases List.mem_cons.mp hm with rfl | hm
        · -- the pool was empty, and a new frame adds nothing
          have hempty : pool.resources = [] := hfront pool List.mem_cons_self
          rw [hempty] at hsub
          exact List.eq_nil_iff_forall_not_mem.mpr fun entry hentry =>
            List.not_mem_nil (hsub entry hentry)
        · exact hfront other (List.mem_cons_of_mem _ hm)
    · intro x
      have hcount := hperm.count_eq x
      rw [List.count_append] at hcount ⊢
      dsimp only
      omega
    · intro p hp
      rw [hchain]
      rcases List.mem_append.mp hp with hp | hp
      · obtain ⟨entry, hentry, rfl⟩ := List.mem_map.mp hp
        exact .inl (List.mem_append_left _ (List.mem_map_of_mem (hsub entry hentry)))
      · exact .inl (List.mem_append_right _ hp)
  | destroy at' =>
    obtain ⟨⟨chain', gone⟩, hdestroy, rfl⟩ := Option.map_eq_some_iff.mp next
    have hne := Chain.destroy_ne_nil hdestroy
    obtain ⟨hperm, hkeyed, hstays, hfront'⟩ := Chain.destroy_spec (h.front_drop hne) hdestroy
    apply h.replace hne _ hkeyed List.prefix_rfl (Chain.ne_nil hstays hne)
    · exact fun hkeep _ => hfront' hkeep
    · intro x
      have hcount := hperm.count_eq x
      rw [List.count_append] at hcount ⊢
      dsimp only
      omega

omit [BEq D] in
lemma Pools.Sound.init (kind : PoolKind) (frames : List ℕ) :
    Pools.Sound kind (Pools.init frames : Pools D R) := by
  have hempty : ∀ pool ∈ (Pools.init frames : Pools D R).chain, pool.resources = [] := by
    intro pool hm
    obtain ⟨limit, -, rfl⟩ := List.mem_map.mp hm
    rfl
  have hheld : Chain.held (Pools.init frames : Pools D R).chain = [] := by
    refine List.flatMap_eq_nil_iff.mpr fun pool hm => ?_
    rw [hempty pool hm, List.map_nil]
  refine ⟨?_, ?_, fun _ pool hm => hempty pool (List.dropLast_subset _ hm)⟩
  · rw [Chain.pooled_eq, hheld]
    dsimp only [Pools.init]
    rw [ite_self]
    exact List.Perm.refl _
  · intro p hp
    rw [hheld] at hp
    exact absurd hp List.not_mem_nil

lemma Pools.Sound.reached {frames : List ℕ} {calls : List (PoolCall D R)}
    (held : Along (Pools.step kind) (Pools.Held kind) (Pools.init frames) calls)
    (h : run (Pools.step kind) (Pools.init frames) calls = some pools) : pools.Sound kind :=
  held.invariant (fun _ _ _ hs hheld next => hs.step hheld next) (.init kind frames) h

/-- What a sound pool hands out: a resource that nobody has or that the pools keep, made for an equal
descriptor. -/
structure Pools.HandedOut (kind : PoolKind) (pools pools' : Pools D R) (descriptor : D)
    (resource : ℕ) : Prop where
  own : ∃ own, pools'.created[resource]? = some own ∧
    (own.descriptor = descriptor ∨ (own.descriptor == descriptor) = true)
  alive : resource ∉ pools.destroyed
  free : kind.neverRelease = false → resource ∉ pools.handed
  handed : pools'.handed = resource :: pools.handed

lemma Pools.Sound.handedOut (h : pools.Sound kind)
    (next : pools.step kind (.getResource at' descriptor choice object) = some pools')
    (returned : pools.returned kind (.getResource at' descriptor choice object) = some resource) :
    pools.HandedOut kind pools' descriptor resource := by
  obtain ⟨⟨chain', created', resource'⟩, hget, rfl⟩ := Option.map_eq_some_iff.mp next
  have heq : resource' = resource := by
    rw [Pools.returned, hget] at returned
    exact Option.some.inj returned
  rw [heq] at hget ⊢
  clear heq
  have hnodup := h.counts.nodup_iff.mpr List.nodup_range
  obtain ⟨hgot, -, -⟩ := Chain.getResource_spec hget
  cases hgot with
  | @found key _ same mem keep take =>
    have hmem : (key, resource) ∈ Chain.held pools.chain := by
      rw [← List.take_append_drop at' pools.chain, Chain.held_append]
      exact List.mem_append_right _ mem
    have hpooled : resource ∈ Chain.pooled pools.chain := by
      rw [Chain.pooled_eq]
      exact List.mem_map_of_mem hmem
    obtain ⟨own, hown, hkey⟩ := h.keyed _ hmem
    obtain ⟨hleft, -, hdisjoint⟩ := List.nodup_append.mp hnodup
    refine ⟨⟨own, hown, .inr ?_⟩, ?_, ?_, rfl⟩
    · rw [← hkey]
      exact same
    · exact fun hm => hdisjoint _ (List.mem_append_right _ hpooled) _ hm rfl
    · intro hkeep hm
      rw [hkeep] at hleft
      exact (List.nodup_append.mp hleft).2.2 _ hm _ hpooled rfl
  | made keep take =>
    have hlt : ∀ x ∈ (if kind.neverRelease then [] else pools.handed) ++
        Chain.pooled pools.chain ++ pools.destroyed, x < pools.created.length := fun x hx =>
      List.mem_range.mp (h.counts.subset hx)
    refine ⟨⟨_, List.getElem?_concat_length, .inl rfl⟩, ?_, ?_, rfl⟩
    · exact fun hm => lt_irrefl _ (hlt _ (List.mem_append_right _ hm))
    · intro hkeep hm
      refine lt_irrefl _ (hlt _ ?_)
      rw [hkeep]
      exact List.mem_append_left _ (List.mem_append_left _ hm)

end PulseEngine.Graphics
