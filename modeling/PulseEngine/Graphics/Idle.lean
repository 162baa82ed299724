import PulseEngine.Graphics.Conservation

/-!
# What a new frame destroys

The time of a pool is the number of its new frames, and an entry has the time at which its resource
was last used. `pool_conserves` is the whole statement about a run of calls on a pool and the pools
behind it.
-/

namespace PulseEngine.Graphics

open Library

variable {D R : Type*} {kind : PoolKind} {chain chain' : Chain D} {pool : ResourcePool D}
  {pools pools' : Pools D R} {call : PoolCall D R} {calls : List (PoolCall D R)} {at' resource : ℕ}

def PoolCall.begins (at' : ℕ) : PoolCall D R → Bool
  | .newFrame k => k == at'
  | _ => false

def newFrames (at' : ℕ) (calls : List (PoolCall D R)) : ℕ := calls.countP (PoolCall.begins at')

def Pools.Uses [BEq D] (kind : PoolKind) (pools : Pools D R) (call : PoolCall D R)
    (resource : ℕ) : Prop :=
  pools.returned kind call = some resource ∨
    kind.neverRelease = false ∧ ∃ at', call = .releaseResource at' resource

lemma Chain.stays_at (h : List.Forall₂ ResourcePool.Stays chain chain') (k : ℕ) :
    Option.Rel ResourcePool.Stays chain[k]? chain'[k]? := by
  induction h generalizing k with
  | nil => exact .none
  | cons hstays _ ih =>
    cases k with
    | zero => exact .some hstays
    | succ k => exact ih k

lemma Chain.stays_drop (h : List.Forall₂ ResourcePool.Stays (chain.drop at') chain') :
    List.Forall₂ ResourcePool.Stays chain (chain.take at' ++ chain') := by
  have happend : List.Forall₂ ResourcePool.Stays (chain.take at' ++ chain.drop at')
      (chain.take at' ++ chain') := List.rel_append (Chain.stays_refl (chain.take at')) h
  rwa [List.take_append_drop] at happend

variable [BEq D]

def PoolCall.Ages (call : PoolCall D R) (at' : ℕ) (pool pool' : ResourcePool D) : Prop :=
  pool.Evolves pool' ∧
    pool'.timestamp = if call.begins at' then (pool.timestamp + 1) % 2 ^ 64 else pool.timestamp

lemma Pools.Sound.ages (h : pools.Sound kind) (next : pools.step kind call = some pools') (k : ℕ) :
    Option.Rel (call.Ages k) pools.chain[k]? pools'.chain[k]? := by
  have hstays : (∀ k, call.begins k = false) →
      List.Forall₂ ResourcePool.Stays pools.chain pools'.chain →
        Option.Rel (call.Ages k) pools.chain[k]? pools'.chain[k]? := by
    intro hbegins hstays
    have hrel := Chain.stays_at hstays k
    generalize pools.chain[k]? = o at hrel ⊢
    generalize pools'.chain[k]? = o' at hrel ⊢
    cases hrel with
    | none => exact .none
    | some hpool =>
      refine .some ⟨hpool.1, ?_⟩
      rw [hbegins k]
      exact hpool.2
  cases call with
  | getResource at' descriptor choice object =>
    obtain ⟨⟨chain', created', resource⟩, hget, rfl⟩ := Option.map_eq_some_iff.mp next
    obtain ⟨-, hspec, -⟩ := Chain.getResource_spec hget
    exact hstays (fun _ => rfl) (Chain.stays_drop hspec)
  | releaseResource at' resource =>
    obtain ⟨chain', hrelease, rfl⟩ := Option.map_eq_some_iff.mp next
    obtain ⟨-, hspec⟩ := Chain.releaseResource_spec hrelease
    exact hstays (fun _ => rfl) (Chain.stays_drop hspec)
  | newFrame at' =>
    obtain ⟨⟨chain', gone⟩, hframe, rfl⟩ := Option.map_eq_some_iff.mp next
    obtain ⟨old, upstream, new, hchain, rfl, hevolves, htime, -⟩ := Chain.newFrame_spec hframe
    have hlt : at' < pools.chain.length := by
      refine Nat.lt_of_not_le fun hle => ?_
      rw [List.drop_eq_nil_of_le hle] at hchain
      exact nomatch hchain
    rw [List.drop_eq_getElem_cons hlt] at hchain
    obtain ⟨rfl, rfl⟩ := List.cons.inj hchain
    have hset : pools.chain.take at' ++ new :: pools.chain.drop (at' + 1) =
        pools.chain.set at' new := by
      rw [List.set_eq_take_append_cons_drop, if_pos hlt]
    dsimp only
    rw [hset, List.getElem?_set]
    by_cases heq : at' = k
    · subst heq
      rw [if_pos rfl, if_pos hlt, List.getElem?_eq_getElem hlt]
      exact .some ⟨hevolves, by simpa [PoolCall.begins] using htime⟩
    · rw [if_neg heq]
      cases pools.chain[k]? with
      | none => exact .none
      | some pool =>
        exact .some ⟨(ResourcePool.Stays.refl pool).1, by simp [PoolCall.begins, heq]⟩
  | destroy at' =>
    obtain ⟨⟨chain', gone⟩, hdestroy, rfl⟩ := Option.map_eq_some_iff.mp next
    obtain ⟨-, -, hspec, -⟩ :=
      Chain.destroy_spec (h.front_drop (Chain.destroy_ne_nil hdestroy)) hdestroy
    exact hstays (fun _ => rfl) (Chain.stays_drop hspec)

lemma Pools.Sound.pool_after (h : pools.Sound kind) (next : pools.step kind call = some pools')
    {k : ℕ} (hpool : pools.chain[k]? = some pool) :
    ∃ pool', pools'.chain[k]? = some pool' ∧ call.Ages k pool pool' := by
  have hrel := h.ages next k
  rw [hpool] at hrel
  generalize pools'.chain[k]? = o' at hrel ⊢
  cases hrel with
  | some hages => exact ⟨_, rfl, hages⟩

lemma Pools.Sound.pool_before (h : pools.Sound kind) (next : pools.step kind call = some pools')
    {k : ℕ} {pool' : ResourcePool D} (hpool : pools'.chain[k]? = some pool') :
    ∃ pool, pools.chain[k]? = some pool ∧ call.Ages k pool pool' := by
  have hrel := h.ages next k
  rw [hpool] at hrel
  generalize pools.chain[k]? = o at hrel ⊢
  cases hrel with
  | some hages => exact ⟨_, rfl, hages⟩

/-- **Frames.** The time of a pool goes on by the number of its new frames, as long as it does not
wrap, and a resource that is used no earlier than `t` has no entry that is older. -/
lemma Pools.Sound.frames {t : ℕ} (resource : ℕ) (h : pools.Sound kind)
    (held : Along (Pools.step kind) (Pools.Held kind) pools calls)
    (hrun : run (Pools.step kind) pools calls = some pools')
    (hpool : pools.chain[at']? = some pool) (ht : t ≤ pool.timestamp)
    (hold : ∀ entry ∈ pool.resources, entry.stamp ≤ pool.timestamp)
    (hentries : ∀ entry ∈ pool.resources, entry.resource = resource → t ≤ entry.stamp)
    (hlt : pool.timestamp + newFrames at' calls < 2 ^ 64) :
    ∃ pool', pools'.chain[at']? = some pool' ∧
      pool'.frameBeforeOutOfData = pool.frameBeforeOutOfData ∧
      pool'.timestamp = pool.timestamp + newFrames at' calls ∧
      (∀ entry ∈ pool'.resources, entry.stamp ≤ pool'.timestamp) ∧
        ∀ entry ∈ pool'.resources, entry.resource = resource → t ≤ entry.stamp := by
  induction calls generalizing pools pool with
  | nil =>
    cases hrun
    exact ⟨pool, hpool, rfl, rfl, hold, hentries⟩
  | cons call calls ih =>
    rw [run_cons] at hrun
    obtain ⟨pools₁, next, hrun⟩ := Option.bind_eq_some_iff.mp hrun
    obtain ⟨pool₁, hpool₁, hevolves, htime⟩ := h.pool_after next hpool
    have hcount : newFrames at' (call :: calls) =
        newFrames at' calls + if call.begins at' then 1 else 0 := List.countP_cons
    -- the time does not wrap
    have htime₁ : pool₁.timestamp = pool.timestamp + if call.begins at' then 1 else 0 := by
      rw [htime]
      rw [hcount] at hlt
      split at hlt
      next hbegins => rw [if_pos hbegins, if_pos hbegins, Nat.mod_eq_of_lt (by omega)]
      next hbegins => rw [if_neg hbegins, if_neg hbegins, Nat.add_zero]
    have hold₁ : ∀ entry ∈ pool₁.resources, entry.stamp ≤ pool₁.timestamp := by
      intro entry hm
      rcases hevolves.entries entry hm with hm | hstamp
      · have hle := hold entry hm
        omega
      · omega
    have hentries₁ : ∀ entry ∈ pool₁.resources, entry.resource = resource → t ≤ entry.stamp := by
      intro entry hm hresource
      rcases hevolves.entries entry hm with hm | hstamp
      · exact hentries entry hm hresource
      · omega
    obtain ⟨pool', hpool', hlimit, htime', hrest⟩ := ih (h.step held.1 next)
      (held.2 pools₁ next) hrun hpool₁ (by omega) hold₁ hentries₁ (by omega)
    exact ⟨pool', hpool', hlimit.trans hevolves.limit, by omega, hrest⟩

omit [BEq D] in
lemma Chain.mem_pooled {k : ℕ} {entry : PoolEntry D} (hpool : chain[k]? = some pool)
    (hm : entry ∈ pool.resources) : entry.resource ∈ Chain.pooled chain :=
  List.mem_flatMap.mpr ⟨pool, List.mem_of_getElem? hpool, List.mem_map_of_mem hm⟩

omit [BEq D] in
lemma Chain.entry_unique {j k : ℕ} {pool' : ResourcePool D} {entry entry' : PoolEntry D}
    (hnodup : (Chain.pooled chain).Nodup) (hj : chain[j]? = some pool)
    (hk : chain[k]? = some pool') (hm : entry ∈ pool.resources) (hm' : entry' ∈ pool'.resources)
    (heq : entry.resource = entry'.resource) : entry = entry' ∧ pool = pool' := by
  induction chain generalizing j k with
  | nil => exact nomatch hj
  | cons head upstream ih =>
    obtain ⟨hhead, hrest, hdisjoint⟩ := List.nodup_append.mp hnodup
    cases j with
    | zero =>
      cases hj
      cases k with
      | zero =>
        cases hk
        exact ⟨List.inj_on_of_nodup_map hhead hm hm' heq, rfl⟩
      | succ k =>
        exact absurd heq (hdisjoint _ (List.mem_map_of_mem hm) _ (Chain.mem_pooled hk hm'))
    | succ j =>
      cases k with
      | zero =>
        cases hk
        exact absurd heq.symm (hdisjoint _ (List.mem_map_of_mem hm') _ (Chain.mem_pooled hj hm))
      | succ k => exact ih hrest hj hk

lemma Chain.getResource_stamp {R : Type*} {descriptor : D} {choice : ℕ} {object : R}
    {created created' : List (Created D R)} (hkeep : kind.neverRelease = true)
    (h : Chain.getResource kind descriptor choice object created chain =
      some (chain', created', resource)) :
    ∃ pool ∈ chain', ∃ entry ∈ pool.resources,
      entry.resource = resource ∧ entry.stamp = pool.timestamp := by
  induction chain generalizing chain' with
  | nil => exact nomatch h
  | cons pool upstream ih =>
    unfold Chain.getResource at h
    split at h
    next i found =>
      cases h
      refine ⟨pool.hand kind i, List.mem_cons_self,
        { pool.resources[i] with stamp := pool.timestamp }, ?_, rfl, ?_⟩
      · rw [ResourcePool.hand, if_pos hkeep]
        exact List.mem_set i.isLt _
      · rw [ResourcePool.hand, if_pos hkeep]
    next =>
      split at h
      next =>
        cases h
        rw [if_pos hkeep]
        exact ⟨pool.insert descriptor created.length, List.mem_cons_self,
          ⟨descriptor, created.length, pool.timestamp⟩, List.mem_cons_self, rfl, rfl⟩
      next =>
        obtain ⟨⟨chain'', created'', resource'⟩, hup, heq⟩ := Option.map_eq_some_iff.mp h
        cases heq
        obtain ⟨pool', hm, hentry⟩ := ih hup
        exact ⟨pool', List.mem_cons_of_mem _ hm, hentry⟩

lemma Pools.Sound.used (h : pools.Sound kind) (held : pools.Held kind call)
    (next : pools.step kind call = some pools') (used : pools.Uses kind call resource) {k : ℕ}
    (hpool : pools'.chain[k]? = some pool) {entry : PoolEntry D} (hm : entry ∈ pool.resources)
    (hresource : entry.resource = resource) : entry.stamp = pool.timestamp := by
  have hsound := h.step held next
  have hnodup := hsound.counts.nodup_iff.mpr List.nodup_range
  have hpooled : entry.resource ∈ Chain.pooled pools'.chain := Chain.mem_pooled hpool hm
  rcases used with returned | ⟨hkeep, at', rfl⟩
  · cases call with
    | getResource at' descriptor choice object =>
      have hhanded := (h.handedOut next returned).handed
      cases hkeep : kind.neverRelease with
      | false =>
        -- the resource is with the callers, so that it has no entry
        rw [hkeep, hhanded, hresource.symm] at hnodup
        obtain ⟨hleft, -⟩ := List.nodup_append.mp hnodup
        exact absurd rfl ((List.nodup_append.mp hleft).2.2 _ List.mem_cons_self _ hpooled)
      | true =>
        obtain ⟨⟨chain', created', resource'⟩, hget, rfl⟩ := Option.map_eq_some_iff.mp next
        have heq : resource' = resource := by
          rw [Pools.returned, hget] at returned
          exact Option.some.inj returned
        obtain ⟨pool₁, hpool₁, entry₁, hm₁, hresource₁, hstamp⟩ :=
          Chain.getResource_stamp hkeep hget
        obtain ⟨j, hpool₁'⟩ :=
          List.getElem?_of_mem (List.mem_append_right (pools.chain.take at') hpool₁)
        obtain ⟨rfl, rfl⟩ := Chain.entry_unique
          (List.nodup_append.mp (List.nodup_append.mp hnodup).1).2.1 hpool hpool₁' hm hm₁
          (hresource.trans (heq.symm.trans hresource₁.symm))
        exact hstamp
    | _ => cases returned
  · obtain ⟨before, hbefore, hevolves, htime⟩ := h.pool_before next hpool
    rw [htime]
    rcases hevolves.entries entry hm with hm | hstamp
    · -- the callers had it, so that it was in no pool
      have hnodup := h.counts.nodup_iff.mpr List.nodup_range
      rw [hkeep] at hnodup
      obtain ⟨hleft, -⟩ := List.nodup_append.mp hnodup
      exact absurd hresource.symm ((List.nodup_append.mp hleft).2.2 _ (held hkeep) _
        (Chain.mem_pooled hbefore hm))
    · exact hstamp

/-- **What a new frame destroys.** It was in the pool, and more new frames than the pool waits have
begun since it was used. -/
lemma Pools.Sound.idle (frames : List ℕ) {limit : ℕ} {before after : List (PoolCall D R)}
    {used : Pools D R} (hlimit : frames[at']? = some limit)
    (held : Along (Pools.step kind) (Pools.Held kind) (Pools.init frames)
      (before ++ call :: after))
    (hused : run (Pools.step kind) (Pools.init frames) before = some used)
    (hrun : run (Pools.step kind) (Pools.init frames) (before ++ call :: after) = some pools)
    (huses : used.Uses kind call resource)
    (hlt : newFrames at' (before ++ call :: after) + 1 + limit < 2 ^ 64)
    (next : pools.step kind (.newFrame at') = some pools')
    (hgone : resource ∈ pools'.destroyed) (hnot : resource ∉ pools.destroyed) :
    limit < newFrames at' after + 1 := by
  have hsound : used.Sound kind := .reached held.of_append hused
  have hheld := held.after_append hused
  rw [run_append, hused, Option.bind_some, run_cons] at hrun
  obtain ⟨pools₁, hcall, hrun⟩ := Option.bind_eq_some_iff.mp hrun
  -- the pool is there from the start
  have hinit : (Pools.init frames : Pools D R).chain[at']? = some (ResourcePool.init limit) := by
    rw [Pools.init, List.getElem?_map, hlimit, Option.map_some]
  have hcount : newFrames at' (before ++ call :: after) = newFrames at' before +
      (newFrames at' after + if call.begins at' then 1 else 0) := by
    rw [newFrames, List.countP_append, List.countP_cons]
    rfl
  obtain ⟨pool₀, hpool₀, hlimit₀, htime₀, hold₀, -⟩ :=
    (Pools.Sound.init kind frames).frames 0 held.of_append hused hinit (Nat.zero_le _) nofun nofun
      (by dsimp only [ResourcePool.init]; omega)
  obtain ⟨pool₁, hpool₁, hevolves₁, htime₁⟩ := hsound.pool_after hcall hpool₀
  have hle₁ : pool₀.timestamp ≤ pool₁.timestamp ∧
      pool₁.timestamp + newFrames at' after + 1 + limit < 2 ^ 64 := by
    rw [htime₀] at htime₁ ⊢
    dsimp only [ResourcePool.init] at htime₁ ⊢
    rw [hcount] at hlt
    split at htime₁
    next hbegins =>
      rw [if_pos hbegins] at hlt
      rw [Nat.mod_eq_of_lt (by omega)] at htime₁
      omega
    next hbegins =>
      rw [if_neg hbegins] at hlt
      omega
  have hold₁ : ∀ entry ∈ pool₁.resources, entry.stamp ≤ pool₁.timestamp := by
    intro entry hm
    rcases hevolves₁.entries entry hm with hm | hstamp
    · exact (hold₀ entry hm).trans hle₁.1
    · omega
  have hsound₁ := hsound.step hheld.1 hcall
  obtain ⟨pool₂, hpool₂, hlimit₂, htime₂, hold₂, hentries₂⟩ := hsound₁.frames resource
    (hheld.2 pools₁ hcall) hrun hpool₁ (le_refl _) hold₁
    (fun entry hm hresource => (hsound.used hheld.1 hcall huses hpool₁ hm hresource).ge) (by omega)
  -- the entry that is out of date
  obtain ⟨⟨chain', gone⟩, hframe, rfl⟩ := Option.map_eq_some_iff.mp next
  obtain ⟨pool, upstream, pool', hchain, -, -, -, -, -, hout⟩ := Chain.newFrame_spec hframe
  have hpool : pool = pool₂ := by
    have hhead : (pools.chain.drop at')[0]? = some pool := by rw [hchain]; rfl
    rw [List.getElem?_drop, Nat.add_zero, hpool₂] at hhead
    exact (Option.some.inj hhead).symm
  rw [hpool] at hout
  rcases List.mem_append.mp hgone with hgone | hgone
  · exact absurd hgone hnot
  · obtain ⟨entry, hm, hresource, hdate⟩ := hout resource hgone
    have hstamp := hentries₂ entry hm hresource
    have hle := hold₂ entry hm
    have hlimit' : pool₂.frameBeforeOutOfData = limit := by
      rw [hlimit₂, hevolves₁.limit, hlimit₀]
      rfl
    rw [hlimit', Nat.mod_eq_of_lt (by omega), Nat.mod_eq_of_lt (by omega)] at hdate
    omega

/-- **Resources are conserved.** In every run of calls on a pool and the pools behind it in which
callers release what they have: a resource of a pool that does not keep what it hands out is with the
callers, in a pool or destroyed, in one of them and once; one of a pool that keeps it is in a pool or
destroyed. What is handed out was made for an equal descriptor, is not destroyed, and nobody has it
unless the pools keep it. A new frame destroys what is in its pool and was not used for more frames
than the pool waits, as long as the time of the pool does not wrap. -/
theorem pool_conserves (D R : Type*) [BEq D] (kind : PoolKind) (frames : List ℕ)
    (calls : List (PoolCall D R)) (pools : Pools D R)
    (held : Along (Pools.step kind) (Pools.Held kind) (Pools.init frames) calls)
    (hrun : run (Pools.step kind) (Pools.init frames) calls = some pools) :
    ((if kind.neverRelease then [] else pools.handed) ++ Chain.pooled pools.chain ++
        pools.destroyed).Perm (List.range pools.created.length) ∧
      (∀ at' descriptor choice object pools' resource,
        pools.step kind (.getResource at' descriptor choice object) = some pools' →
          pools.returned kind (.getResource at' descriptor choice object) = some resource →
            pools.HandedOut kind pools' descriptor resource) ∧
      ∀ at' pools', pools.step kind (.newFrame at') = some pools' →
        ∀ resource ∈ pools'.destroyed, resource ∉ pools.destroyed →
          resource ∈ Chain.pooled pools.chain ∧
            ∀ limit before call after used, frames[at']? = some limit →
              newFrames at' calls + 1 + limit < 2 ^ 64 → calls = before ++ call :: after →
                run (Pools.step kind) (Pools.init frames) before = some used →
                  used.Uses kind call resource → limit < newFrames at' after + 1 := by
  have hsound : pools.Sound kind := .reached held hrun
  refine ⟨hsound.counts, fun _ _ _ _ _ _ => hsound.handedOut, ?_⟩
  intro at' pools' next resource hgone hnot
  refine ⟨?_, ?_⟩
  · obtain ⟨⟨chain', gone⟩, hframe, rfl⟩ := Option.map_eq_some_iff.mp next
    obtain ⟨pool, upstream, pool', hchain, -, -, -, hperm, -⟩ := Chain.newFrame_spec hframe
    rcases List.mem_append.mp hgone with hgone | hgone
    · exact absurd hgone hnot
    · have hmem := hperm.symm.subset (List.mem_append_left _ hgone)
      rw [← List.take_append_drop at' pools.chain, Chain.pooled_eq, Chain.held_append,
        List.map_append, ← Chain.pooled_eq, ← Chain.pooled_eq]
      exact List.mem_append_right _ hmem
  · rintro limit before call after used hlimit hlt rfl hused huses
    exact Pools.Sound.idle frames hlimit held hused hrun huses hlt next hgone hnot

/-- What callers may do can be decided. -/
instance Pools.decidableHeld (kind : PoolKind) (pools : Pools D R) :
    ∀ call, Decidable (pools.Held kind call)
  | .releaseResource _ resource =>
    inferInstanceAs (Decidable (kind.neverRelease = false → resource ∈ pools.handed))
  | .getResource _ _ _ _ | .newFrame _ | .destroy _ => .isTrue trivial

/-- A texture that is handed out, released, and destroyed by the next frame of a pool that does not
wait: it was in the pool. -/
theorem pool_conserves_texture :
    ∃ pools pools' : Pools ℕ Unit,
      run (Pools.step ⟨false, true⟩) (Pools.init [0])
        [.getResource 0 5 0 (), .releaseResource 0 0] = some pools ∧
      pools.step ⟨false, true⟩ (.newFrame 0) = some pools' ∧ 0 ∈ pools'.destroyed ∧
        0 ∈ Chain.pooled pools.chain := by
  let pools : Pools ℕ Unit := ⟨[⟨[⟨5, 0, 0⟩], 0, 0⟩], [⟨5, ()⟩], [], []⟩
  have hrun : run (Pools.step ⟨false, true⟩) (Pools.init [0])
      [.getResource 0 5 0 (), .releaseResource 0 0] = some pools := by decide +kernel
  have next : pools.step ⟨false, true⟩ (.newFrame 0) =
      some ⟨[⟨[], 1, 0⟩], [⟨5, ()⟩], [0], []⟩ := by decide +kernel
  have held : Along (Pools.step ⟨false, true⟩) (Pools.Held ⟨false, true⟩)
      (Pools.init [0] : Pools ℕ Unit) [.getResource 0 5 0 (), .releaseResource 0 0] := by
    decide +kernel
  have hconserves := pool_conserves ℕ Unit ⟨false, true⟩ [0] _ pools held hrun
  exact ⟨pools, _, hrun, next, List.mem_singleton_self 0,
    (hconserves.2.2 0 _ next 0 (List.mem_singleton_self 0) List.not_mem_nil).1⟩

/-- A pool that keeps what it hands out gives a view to the next caller while the first one has it. -/
theorem pool_hands_out_twice :
    ¬ ∀ (kind : PoolKind) (frames : List ℕ) (calls : List (PoolCall ℕ Unit)) pools,
      run (Pools.step kind) (Pools.init frames) calls = some pools →
        ∀ at' descriptor choice resource,
          pools.returned kind (.getResource at' descriptor choice ()) = some resource →
            resource ∉ pools.handed := by
  intro h
  have hrun : run (Pools.step ⟨true, true⟩) (Pools.init [11]) [.getResource 0 5 0 ()] =
      some (⟨[⟨[⟨5, 0, 0⟩], 0, 11⟩], [⟨5, ()⟩], [], [0]⟩ : Pools ℕ Unit) := by decide +kernel
  exact h _ _ _ _ hrun 0 5 0 0 (by decide +kernel) List.mem_cons_self

end PulseEngine.Graphics
