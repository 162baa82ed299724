import PulseEngine.Library.Tracking
import PulseEngine.RenderGraph.Execute

/-!
# Barriers and tracked states

What a call of `place_barriers` does, said of one location of the tracked states at a time: the state
becomes the last one that the pass requests, and a barrier is emitted when a request differs from the
tracked state or forces one.
-/

namespace PulseEngine.RenderGraph

open Library

inductive Location where
  | texture (texture : Physical) (entry : Nat)
  | buffer (buffer : Physical)
  deriving DecidableEq, Repr

def Memory.state (m : Memory) : Location → Option ResourceState
  | .texture texture entry => (m.textures texture).curStates[entry]?
  | .buffer buffer => some (m.buffers buffer)

def Location.forces : Location → ResourceState → Bool
  | .texture _ _ => Memory.forcesTexture
  | .buffer _ => Memory.forcesBuffer

def Emission.Covers (e : Emission) : Location → Prop
  | .texture texture entry =>
    match e.barrier with
    | .texture covered _ _ => covered = texture
    | .subresource covered _ _ _ _ => covered = texture ∧ e.entry = entry
    | .buffer _ _ _ => False
  | .buffer buffer =>
    match e.barrier with
    | .buffer covered _ _ => covered = buffer
    | _ => False

def Emission.Exact (e : Emission) : Prop :=
  match e.barrier with
  | .texture texture src _ => ∀ s ∈ (e.moment.textures texture).curStates, s = src
  | .subresource texture src _ mipLevel arrayLayer =>
    (e.moment.textures texture).curStates[mipLevel + arrayLayer * e.mipCount]? = some src
  | .buffer buffer src _ => e.moment.buffers buffer = src

def Memory.Consistent (m : Memory) : Prop :=
  ∀ texture, (m.textures texture).statesConsistent →
    ∀ s ∈ (m.textures texture).curStates, ∀ s' ∈ (m.textures texture).curStates, s = s'

/-- What a step does: at every location the state is tracked, and a barrier is emitted when the tracker
emits one. -/
structure Tracks (m m' : Memory) (emissions : List Emission)
    (requests : Location → List ResourceState) : Prop where
  absent : ∀ {ℓ : Location}, m.state ℓ = none → m'.state ℓ = none
  state : ∀ {ℓ : Location} {s : ResourceState}, m.state ℓ = some s →
    m'.state ℓ = some (tracked s (requests ℓ))
  emitted : ∀ {ℓ : Location} {s : ResourceState}, m.state ℓ = some s →
    ((∃ e ∈ emissions, e.Covers ℓ) ↔ emits ℓ.forces s (requests ℓ) = true)

variable {m m' m'' : Memory} {emissions more : List Emission} {texture : Physical}
  {usage : ResourceState} {mipCount : Nat}

lemma not_covers_nil {ℓ : Location} : ¬ ∃ emission ∈ ([] : List Emission), emission.Covers ℓ := by
  simp

lemma Tracks.refl (m : Memory) : Tracks m m [] fun _ => [] := by
  constructor
  · exact id
  · exact fun h => h
  · intro ℓ s _
    simp [emits]

lemma Tracks.trans {requests requests' : Location → List ResourceState}
    (h : Tracks m m' emissions requests) (h' : Tracks m' m'' more requests') :
    Tracks m m'' (emissions ++ more) fun ℓ => requests ℓ ++ requests' ℓ := by
  constructor
  · exact fun hℓ => h'.absent (h.absent hℓ)
  · intro ℓ s hℓ
    rw [tracked_append]
    exact h'.state (h.state hℓ)
  · intro ℓ s hℓ
    rw [emits_append, Bool.or_eq_true, ← h.emitted hℓ, ← h'.emitted (h.state hℓ)]
    simp only [List.mem_append, or_and_right, exists_or]

namespace Memory

@[simp] lemma setTexture_textures (m : Memory) (texture : Physical) (data : TextureData) :
    (m.setTexture texture data).textures texture = data := Function.update_self ..

@[simp] lemma setTexture_setTexture (m : Memory) (texture : Physical) (data data' : TextureData) :
    (m.setTexture texture data).setTexture texture data' = m.setTexture texture data' := by
  simp only [setTexture, Function.update_idem]

lemma setTexture_of_ne {other : Physical} (m : Memory) (data : TextureData) (h : other ≠ texture) :
    (m.setTexture texture data).textures other = m.textures other := Function.update_of_ne h ..

@[simp] lemma setTexture_self (m : Memory) (texture : Physical) :
    m.setTexture texture (m.textures texture) = m := by
  simp only [setTexture, Function.update_eq_self]

lemma state_setTexture {ℓ : Location} (m : Memory) (data : TextureData)
    (h : ∀ entry, ℓ ≠ .texture texture entry) : (m.setTexture texture data).state ℓ = m.state ℓ := by
  cases ℓ with
  | texture other entry =>
    have hne : other ≠ texture := fun he => h entry (he ▸ rfl)
    rw [state, state, setTexture_of_ne m data hne]
  | buffer buffer => rfl

/-- The states after the first turns of the loop of `place_barriers` over the states of a texture. -/
def placedUpTo (m : Memory) (texture : Physical) (usage : ResourceState) (n : Nat) : Memory :=
  m.setTexture texture { m.textures texture with
    curStates := List.replicate n usage ++ (m.textures texture).curStates.drop n }

def entryEmission (m : Memory) (texture : Physical) (mipCount : Nat) (usage cur : ResourceState)
    (i : Nat) : Emission :=
  ⟨.subresource texture cur usage (i % mipCount % 0x100) (i / mipCount % 0x100),
    m.placedUpTo texture usage i, i, mipCount⟩

lemma placedUpTo_getElem? (m : Memory) (texture : Physical) (usage : ResourceState) (n : Nat) :
    ((m.placedUpTo texture usage n).textures texture).curStates[n]? =
      (m.textures texture).curStates[n]? := by
  rw [placedUpTo, setTexture_textures, List.getElem?_append_right (by simp), List.length_replicate,
    Nat.sub_self, List.getElem?_drop, Nat.add_zero]

lemma placedUpTo_succ {n : Nat} (hn : n < (m.textures texture).curStates.length) :
    (m.placedUpTo texture usage n).setTexture texture
      { (m.placedUpTo texture usage n).textures texture with
        curStates := ((m.placedUpTo texture usage n).textures texture).curStates.set n usage } =
      m.placedUpTo texture usage (n + 1) := by
  rw [placedUpTo, setTexture_textures, setTexture_setTexture, placedUpTo]
  congr 2
  rw [List.set_append_right _ _ (by simp), List.length_replicate, Nat.sub_self,
    List.drop_eq_getElem_cons hn, List.set_cons_zero, List.replicate_succ', List.append_assoc]
  rfl

lemma placedUpTo_succ_of_eq {n : Nat}
    (hn : (m.textures texture).curStates[n]? = some usage) :
    m.placedUpTo texture usage (n + 1) = m.placedUpTo texture usage n := by
  obtain ⟨hlt, hcur⟩ := List.getElem?_eq_some_iff.mp hn
  rw [placedUpTo, placedUpTo, List.drop_eq_getElem_cons hlt, hcur, List.replicate_succ',
    List.append_assoc]
  rfl

lemma placeEntries_spec {n : Nat}
    (e : (List.range n).foldlM (placeEntry texture mipCount usage) (m, []) = some (m', emissions))
    (hn : n ≤ (m.textures texture).curStates.length) :
    m' = m.placedUpTo texture usage n ∧
      (∀ i cur, i < n → (m.textures texture).curStates[i]? = some cur →
        cur ≠ usage ∨ forcesTexture usage = true → mipCount ≠ 0) ∧
      ∀ emission, emission ∈ emissions ↔
        ∃ i cur, i < n ∧ (m.textures texture).curStates[i]? = some cur ∧
          (cur ≠ usage ∨ forcesTexture usage = true) ∧
          emission = m.entryEmission texture mipCount usage cur i := by
  induction n generalizing m' emissions with
  | zero =>
    cases e
    refine ⟨?_, nofun, by simp⟩
    exact (setTexture_self m texture).symm
  | succ n ih =>
    rw [List.range_succ, List.foldlM_append] at e
    obtain ⟨⟨m₁, es₁⟩, e₁, e⟩ := Option.bind_eq_some_iff.mp e
    obtain ⟨⟨m₂, es₂⟩, e₂, e⟩ := Option.bind_eq_some_iff.mp e
    cases e
    obtain ⟨rfl, hmip₁, hes₁⟩ := ih e₁ (Nat.le_of_succ_le hn)
    have hlt : n < (m.textures texture).curStates.length := hn
    obtain ⟨cur, hcur⟩ : ∃ cur, (m.textures texture).curStates[n]? = some cur :=
      ⟨_, List.getElem?_eq_getElem hlt⟩
    unfold placeEntry at e₂
    simp only [placedUpTo_getElem?, hcur, Option.bind_eq_bind, Option.bind_some,
      Option.pure_def] at e₂
    have hturn : ∀ emission, (∃ i cur, i < n + 1 ∧ (m.textures texture).curStates[i]? = some cur ∧
        (cur ≠ usage ∨ forcesTexture usage = true) ∧
        emission = m.entryEmission texture mipCount usage cur i) ↔
        emission ∈ es₁ ∨ (cur ≠ usage ∨ forcesTexture usage = true) ∧
          emission = m.entryEmission texture mipCount usage cur n := by
      intro emission
      rw [hes₁]
      constructor
      · rintro ⟨i, cur', hi, hcur', hrest⟩
        cases Nat.lt_succ_iff_lt_or_eq.mp hi with
        | inl hi => exact .inl ⟨i, cur', hi, hcur', hrest⟩
        | inr hi =>
          subst hi
          rw [hcur] at hcur'
          cases hcur'
          exact .inr hrest
      · rintro (⟨i, cur', hi, hrest⟩ | hrest)
        · exact ⟨i, cur', hi.trans (Nat.lt_succ_self n), hrest⟩
        · exact ⟨n, cur, Nat.lt_succ_self n, hcur, hrest⟩
    split at e₂
    · rename_i hemit
      simp only [Option.bind_eq_some_iff, Option.guard_eq_some', Option.some.injEq] at e₂
      obtain ⟨_, hmip, e₂⟩ := e₂
      cases e₂
      refine ⟨placedUpTo_succ hlt, fun _ _ _ _ _ => hmip, fun emission => ?_⟩
      rw [hturn, List.mem_append, List.mem_singleton]
      exact or_congr_right ⟨fun h => ⟨hemit, h⟩, fun h => h.2⟩
    · rename_i hemit
      cases e₂
      have hsame : (m.textures texture).curStates[n]? = some usage :=
        hcur.trans (congrArg some (not_not.mp (not_or.mp hemit).1))
      refine ⟨(placedUpTo_succ_of_eq hsame).symm, ?_, ?_⟩
      · intro i cur' hi hcur' hemit'
        cases Nat.lt_succ_iff_lt_or_eq.mp hi with
        | inl hi => exact hmip₁ i cur' hi hcur' hemit'
        | inr hi =>
          subst hi
          rw [hcur] at hcur'
          cases hcur'
          exact absurd hemit' hemit
      · intro emission
        rw [hturn]
        exact ⟨.inl, fun h => h.resolve_right fun h => hemit h.1⟩

lemma tracks_setTexture {data : TextureData} {requests : Location → List ResourceState}
    (hother : ∀ ℓ, (∀ entry, ℓ ≠ .texture texture entry) →
      requests ℓ = [] ∧ ∀ emission ∈ emissions, ¬ emission.Covers ℓ)
    (hlength : data.curStates.length = (m.textures texture).curStates.length)
    (hentry : ∀ entry s, (m.textures texture).curStates[entry]? = some s →
      data.curStates[entry]? = some (tracked s (requests (.texture texture entry))) ∧
        ((∃ emission ∈ emissions, emission.Covers (.texture texture entry)) ↔
          emits forcesTexture s (requests (.texture texture entry)) = true)) :
    Tracks m (m.setTexture texture data) emissions requests := by
  constructor
  · intro ℓ hℓ
    by_cases hon : ∀ entry, ℓ ≠ .texture texture entry
    · rwa [state_setTexture m data hon]
    · push Not at hon
      obtain ⟨entry, rfl⟩ := hon
      rw [state, List.getElem?_eq_none_iff] at hℓ ⊢
      rwa [setTexture_textures, hlength]
  · intro ℓ s hℓ
    by_cases hon : ∀ entry, ℓ ≠ .texture texture entry
    · rwa [state_setTexture m data hon, (hother ℓ hon).1, tracked_nil]
    · push Not at hon
      obtain ⟨entry, rfl⟩ := hon
      rw [state, setTexture_textures]
      exact (hentry entry s hℓ).1
  · intro ℓ s hℓ
    by_cases hon : ∀ entry, ℓ ≠ .texture texture entry
    · rw [(hother ℓ hon).1]
      constructor
      · rintro ⟨emission, hm, hcovers⟩
        exact absurd hcovers ((hother ℓ hon).2 emission hm)
      · exact fun h => by cases h
    · push Not at hon
      obtain ⟨entry, rfl⟩ := hon
      exact (hentry entry s hℓ).2

/-- A whole access does not name what it covers when it has more than 256 mip levels or layers, and an
entry beyond them is not in the requested state. -/
def Fits (m : Memory) (texture : Physical) (mipCount : Nat) (usage : ResourceState) : Prop :=
  (m.textures texture).statesConsistent ∨ (m.textures texture).curStates.length = 1 ∨
    ∀ i cur, (m.textures texture).curStates[i]? = some cur → cur ≠ usage →
      i % mipCount < 0x100 ∧ i / mipCount < 0x100

lemma named_le {i : Nat} (mipCount : Nat) :
    i % mipCount % 0x100 + i / mipCount % 0x100 * mipCount ≤ i := by
  calc i % mipCount % 0x100 + i / mipCount % 0x100 * mipCount
      ≤ i % mipCount + i / mipCount * mipCount :=
        Nat.add_le_add (Nat.mod_le _ _) (Nat.mul_le_mul_right _ (Nat.mod_le _ _))
    _ = i := Nat.mod_add_div' i mipCount

lemma named_eq_iff {i : Nat} (h : mipCount ≠ 0) :
    i % mipCount % 0x100 + i / mipCount % 0x100 * mipCount = i ↔
      i % mipCount < 0x100 ∧ i / mipCount < 0x100 := by
  constructor
  · intro he
    have hsum := Nat.mod_add_div' i mipCount
    have hmip := Nat.mod_le (i % mipCount) 0x100
    have hlayer := Nat.mul_le_mul_right mipCount (Nat.mod_le (i / mipCount) 0x100)
    have hmip' : i % mipCount % 0x100 = i % mipCount := by omega
    have hlayer' : i / mipCount % 0x100 * mipCount = i / mipCount * mipCount := by omega
    have hlayer'' := Nat.eq_of_mul_eq_mul_right (Nat.pos_of_ne_zero h) hlayer'
    exact ⟨hmip' ▸ Nat.mod_lt _ (by omega), hlayer'' ▸ Nat.mod_lt _ (by omega)⟩
  · rintro ⟨hmip, hlayer⟩
    rw [Nat.mod_eq_of_lt hmip, Nat.mod_eq_of_lt hlayer]
    exact Nat.mod_add_div' i mipCount

lemma entryEmission_exact_iff {cur : ResourceState} {i : Nat} (hmip : mipCount ≠ 0)
    (hcur : (m.textures texture).curStates[i]? = some cur) :
    (m.entryEmission texture mipCount usage cur i).Exact ↔
      (cur ≠ usage → i % mipCount < 0x100 ∧ i / mipCount < 0x100) := by
  have hnamed : (m.entryEmission texture mipCount usage cur i).Exact ↔
      ((m.placedUpTo texture usage i).textures texture).curStates[
        i % mipCount % 0x100 + i / mipCount % 0x100 * mipCount]? = some cur := Iff.rfl
  rw [hnamed, ← named_eq_iff hmip]
  obtain hlt | heq := (named_le (i := i) mipCount).lt_or_eq
  · rw [placedUpTo, setTexture_textures, List.getElem?_append_left (by simpa using hlt),
      List.getElem?_replicate_of_lt hlt, Option.some.injEq]
    constructor
    · exact fun h hne => absurd h.symm hne
    · intro h
      by_contra hne
      exact hlt.ne (h (Ne.symm hne))
  · rw [heq, placedUpTo_getElem?, hcur]
    simp

lemma Consistent.setTexture (consistent : m.Consistent) {data : TextureData}
    (h : data.statesConsistent → ∀ s ∈ data.curStates, ∀ s' ∈ data.curStates, s = s') :
    (m.setTexture texture data).Consistent := by
  intro other
  by_cases ho : other = texture
  · rw [ho, setTexture_textures]
    exact h
  · rw [setTexture_of_ne m data ho]
    exact consistent other

lemma not_covers_of_texture {ℓ : Location} (hℓ : ∀ entry, ℓ ≠ .texture texture entry)
    {emission : Emission} (h : emission.Covers ℓ) {src dst : ResourceState} :
    emission.barrier ≠ .texture texture src dst ∧
      ∀ mip layer, emission.barrier ≠ .subresource texture src dst mip layer := by
  obtain ⟨barrier, moment, entry, mipCount⟩ := emission
  cases ℓ with
  | texture other k =>
    constructor
    · rintro rfl
      exact hℓ k (congrArg (Location.texture · k) (show texture = other from h).symm)
    · rintro mip layer rfl
      exact hℓ k (congrArg (Location.texture · k) (show texture = other from h.1).symm)
  | buffer buffer =>
    constructor
    · rintro rfl
      exact h
    · rintro mip layer rfl
      exact h

lemma placeWhole_spec (consistent : m.Consistent) {cur : ResourceState}
    (hone : ∀ s ∈ (m.textures texture).curStates, s = cur)
    {requests : Location → List ResourceState}
    (hon : ∀ entry, requests (.texture texture entry) = [usage])
    (hoff : ∀ ℓ, (∀ entry, ℓ ≠ .texture texture entry) → requests ℓ = [])
    (e : (if cur ≠ usage ∨ forcesTexture usage = true then
        some (m.setTexture texture ⟨(m.textures texture).curStates.map fun _ => usage, true⟩,
          [(⟨.texture texture cur usage, m, 0, mipCount⟩ : Emission)])
      else some (m.setTexture texture { m.textures texture with statesConsistent := true }, [])) =
      some (m', emissions)) :
    Tracks m m' emissions requests ∧ m'.Consistent ∧ ∀ emission ∈ emissions, emission.Exact := by
  split at e
  · rename_i hemit
    cases e
    refine ⟨tracks_setTexture ?_ (List.length_map _) ?_, consistent.setTexture ?_, ?_⟩
    · intro ℓ hℓ
      refine ⟨hoff ℓ hℓ, ?_⟩
      intro emission hm hcovers
      exact (not_covers_of_texture hℓ hcovers).1 (congrArg Emission.barrier (List.mem_singleton.mp hm))
    · intro entry s hs
      rw [hon, tracked_singleton, emits_singleton, hone s (List.mem_of_getElem? hs)]
      refine ⟨?_, iff_of_true ⟨_, .head _, rfl⟩ hemit⟩
      rw [List.getElem?_map, hs]
      rfl
    · intro _ s hs s' hs'
      obtain ⟨_, -, rfl⟩ := List.mem_map.mp hs
      obtain ⟨_, -, rfl⟩ := List.mem_map.mp hs'
      rfl
    · intro emission hm
      cases List.mem_singleton.mp hm
      exact hone
  · rename_i hkeep
    cases e
    rw [not_or, not_not] at hkeep
    refine ⟨tracks_setTexture ?_ rfl ?_, consistent.setTexture ?_, List.forall_mem_nil _⟩
    · exact fun ℓ hℓ => ⟨hoff ℓ hℓ, List.forall_mem_nil _⟩
    · intro entry s hs
      have hs' : s = usage := (hone s (List.mem_of_getElem? hs)).trans hkeep.1
      rw [hon, tracked_singleton, emits_singleton, hs]
      refine ⟨congrArg some hs', iff_of_false not_covers_nil ?_⟩
      rw [not_or, not_not]
      exact ⟨hs', hkeep.2⟩
    · intro _ s hs s' hs'
      rw [hone s hs, hone s' hs']

lemma placeTexture_spec (consistent : m.Consistent)
    (e : m.placeTexture texture mipCount usage = some (m', emissions))
    {requests : Location → List ResourceState}
    (hon : ∀ entry, requests (.texture texture entry) = [usage])
    (hoff : ∀ ℓ, (∀ entry, ℓ ≠ .texture texture entry) → requests ℓ = []) :
    Tracks m m' emissions requests ∧ m'.Consistent ∧
      ((∀ emission ∈ emissions, emission.Exact) ↔ m.Fits texture mipCount usage) := by
  unfold placeTexture at e
  dsimp only at e
  split at e
  · rename_i hflag
    simp only [Option.bind_eq_bind, Option.bind_eq_some_iff, Option.pure_def] at e
    obtain ⟨cur, hcur, e⟩ := e
    have hone : ∀ s ∈ (m.textures texture).curStates, s = cur := by
      intro s hs
      cases hflag with
      | inl hflag => exact consistent texture hflag s hs cur (List.mem_of_getElem? hcur)
      | inr hlength =>
        obtain ⟨only, honly⟩ := List.length_eq_one_iff.mp hlength
        rw [honly] at hs hcur
        cases hcur
        exact List.mem_singleton.mp hs
    obtain ⟨htracks, hconsistent, hexact⟩ := placeWhole_spec consistent hone hon hoff e
    exact ⟨htracks, hconsistent, iff_of_true hexact (or_assoc.mp (.inl hflag))⟩
  · rename_i hflag
    simp only [Option.bind_eq_bind, Option.bind_eq_some_iff, Option.pure_def, Option.some.injEq,
      Prod.mk.injEq] at e
    obtain ⟨⟨m₁, es₁⟩, e₁, rfl, rfl⟩ := e
    obtain ⟨rfl, hmip, hes⟩ := placeEntries_spec e₁ le_rfl
    rw [placedUpTo, setTexture_textures, setTexture_setTexture, List.drop_length, List.append_nil]
    dsimp only
    refine ⟨tracks_setTexture ?_ List.length_replicate ?_, consistent.setTexture ?_, ?_⟩
    · intro ℓ hℓ
      refine ⟨hoff ℓ hℓ, ?_⟩
      intro emission hm hcovers
      obtain ⟨i, cur, -, -, -, rfl⟩ := (hes emission).mp hm
      exact (not_covers_of_texture hℓ hcovers).2 _ _ rfl
    · intro entry s hs
      have hlt := (List.getElem?_eq_some_iff.mp hs).1
      rw [hon, tracked_singleton, emits_singleton]
      refine ⟨List.getElem?_replicate_of_lt hlt, ?_⟩
      constructor
      · rintro ⟨emission, hm, hcovers⟩
        obtain ⟨i, cur, -, hcur, hemit, rfl⟩ := (hes emission).mp hm
        obtain rfl : i = entry := hcovers.2
        rw [hs] at hcur
        cases hcur
        exact hemit
      · intro hemit
        refine ⟨m.entryEmission texture mipCount usage s entry, ?_, rfl, rfl⟩
        exact (hes _).mpr ⟨entry, s, hlt, hs, hemit, rfl⟩
    · intro _ s hs s' hs'
      rw [List.eq_of_mem_replicate hs, List.eq_of_mem_replicate hs']
    · have hfits : m.Fits texture mipCount usage ↔ ∀ i cur,
          (m.textures texture).curStates[i]? = some cur → cur ≠ usage →
            i % mipCount < 0x100 ∧ i / mipCount < 0x100 := by
        rw [Fits, ← or_assoc]
        exact or_iff_right hflag
      rw [hfits]
      constructor
      · intro hexact i cur hcur hne
        have hlt := (List.getElem?_eq_some_iff.mp hcur).1
        have h := hexact _ ((hes _).mpr ⟨i, cur, hlt, hcur, .inl hne, rfl⟩)
        exact (entryEmission_exact_iff (hmip i cur hlt hcur (.inl hne)) hcur).mp h hne
      · intro h emission hm
        obtain ⟨i, cur, hlt, hcur, hemit, rfl⟩ := (hes emission).mp hm
        exact (entryEmission_exact_iff (hmip i cur hlt hcur hemit) hcur).mpr (h i cur hcur)

lemma placeSubresource_spec (consistent : m.Consistent) {resource : CompiledResource}
    (e : m.placeSubresource texture resource usage = some (m', emissions))
    {requests : Location → List ResourceState}
    (hon : ∀ entry, requests (.texture texture entry) =
      if entry = resource.mipLevel + resource.arraySlice * resource.mipCount then [usage] else [])
    (hoff : ∀ ℓ, (∀ entry, ℓ ≠ .texture texture entry) → requests ℓ = []) :
    Tracks m m' emissions requests ∧ m'.Consistent ∧ ∀ emission ∈ emissions, emission.Exact := by
  unfold placeSubresource at e
  simp only [Option.bind_eq_bind, Option.bind_eq_some_iff, Option.pure_def] at e
  obtain ⟨cur, hcur, e⟩ := e
  have hlt := (List.getElem?_eq_some_iff.mp hcur).1
  split at e
  · rename_i hemit
    cases e
    refine ⟨tracks_setTexture ?_ List.length_set ?_, consistent.setTexture (by rintro ⟨⟩), ?_⟩
    · intro ℓ hℓ
      refine ⟨hoff ℓ hℓ, ?_⟩
      intro emission hm hcovers
      exact (not_covers_of_texture hℓ hcovers).2 _ _
        (congrArg Emission.barrier (List.mem_singleton.mp hm))
    · intro entry s hs
      rw [hon]
      by_cases hentry : entry = resource.mipLevel + resource.arraySlice * resource.mipCount
      · subst hentry
        rw [hcur] at hs
        cases hs
        rw [if_pos rfl, tracked_singleton, emits_singleton]
        exact ⟨List.getElem?_set_self hlt, iff_of_true ⟨_, .head _, rfl, rfl⟩ hemit⟩
      · rw [if_neg hentry, tracked_nil, List.getElem?_set_ne (Ne.symm hentry)]
        refine ⟨hs, iff_of_false ?_ Bool.false_ne_true⟩
        rintro ⟨emission, hm, hcovers⟩
        cases List.mem_singleton.mp hm
        exact hentry hcovers.2.symm
    · intro emission hm
      cases List.mem_singleton.mp hm
      exact hcur
  · rename_i hkeep
    cases e
    rw [not_or, not_not] at hkeep
    refine ⟨?_, consistent, List.forall_mem_nil _⟩
    have htracks : Tracks m (m.setTexture texture (m.textures texture)) [] requests := by
      refine tracks_setTexture (fun ℓ hℓ => ⟨hoff ℓ hℓ, List.forall_mem_nil _⟩) rfl ?_
      intro entry s hs
      rw [hon]
      by_cases hentry : entry = resource.mipLevel + resource.arraySlice * resource.mipCount
      · subst hentry
        rw [hcur] at hs
        cases hs
        rw [if_pos rfl, tracked_singleton, emits_singleton, hcur]
        refine ⟨congrArg some hkeep.1, iff_of_false not_covers_nil ?_⟩
        rw [not_or, not_not]
        exact hkeep
      · rw [if_neg hentry, tracked_nil]
        exact ⟨hs, iff_of_false not_covers_nil Bool.false_ne_true⟩
    rwa [setTexture_self] at htracks

lemma placeBuffer_spec (consistent : m.Consistent) {buffer : Physical}
    {requests : Location → List ResourceState} (hon : requests (.buffer buffer) = [usage])
    (hoff : ∀ ℓ, ℓ ≠ .buffer buffer → requests ℓ = []) :
    Tracks m (m.placeBuffer buffer usage).1 (m.placeBuffer buffer usage).2 requests ∧
      (m.placeBuffer buffer usage).1.Consistent ∧
      ∀ emission ∈ (m.placeBuffer buffer usage).2, emission.Exact := by
  unfold placeBuffer
  split
  · rename_i hemit
    refine ⟨⟨?_, ?_, ?_⟩, consistent, ?_⟩
    · intro ℓ hℓ
      cases ℓ with
      | texture texture entry => exact hℓ
      | buffer other => cases hℓ
    · intro ℓ s hℓ
      by_cases hb : ℓ = .buffer buffer
      · subst hb
        rw [hon, tracked_singleton]
        exact congrArg some (Function.update_self ..)
      · rw [hoff ℓ hb, tracked_nil]
        cases ℓ with
        | texture texture entry => exact hℓ
        | buffer other =>
          have hne : other ≠ buffer := fun he => hb (he ▸ rfl)
          rw [← hℓ]
          exact congrArg some (Function.update_of_ne hne ..)
    · intro ℓ s hℓ
      by_cases hb : ℓ = .buffer buffer
      · subst hb
        cases hℓ
        rw [hon, emits_singleton]
        exact iff_of_true ⟨_, .head _, rfl⟩ hemit
      · rw [hoff ℓ hb]
        refine iff_of_false ?_ Bool.false_ne_true
        rintro ⟨emission, hm, hcovers⟩
        cases List.mem_singleton.mp hm
        cases ℓ with
        | texture texture entry => exact hcovers
        | buffer other => exact hb (congrArg Location.buffer (show buffer = other from hcovers).symm)
    · intro emission hm
      cases List.mem_singleton.mp hm
      rfl
  · rename_i hkeep
    rw [not_or, not_not] at hkeep
    refine ⟨⟨fun hℓ => hℓ, ?_, ?_⟩, consistent, List.forall_mem_nil _⟩
    · intro ℓ s hℓ
      by_cases hb : ℓ = .buffer buffer
      · subst hb
        rw [hon, tracked_singleton]
        exact congrArg some hkeep.1
      · rwa [hoff ℓ hb, tracked_nil]
    · intro ℓ s hℓ
      by_cases hb : ℓ = .buffer buffer
      · subst hb
        cases hℓ
        rw [hon, emits_singleton]
        refine iff_of_false not_covers_nil ?_
        rw [not_or, not_not]
        exact hkeep
      · rw [hoff ℓ hb]
        exact iff_of_false not_covers_nil Bool.false_ne_true

end Memory

def CompiledResource.At (resource : CompiledResource) (physical : Physical) : Location → Bool
  | .texture texture entry =>
    resource.resourceType = .texture && texture = physical && (resource.manageType ≠ .subResource ||
      entry = resource.mipLevel + resource.arraySlice * resource.mipCount)
  | .buffer buffer => resource.resourceType = .buffer && buffer = physical

namespace CompiledGraph

def Touches (c : CompiledGraph) (managed : Nat → Option Nat) (edge : CompiledEdge) (ℓ : Location) :
    Bool :=
  edge.usage ≠ .undefined && c.resources[edge.index]?.any fun resource =>
    (c.find managed resource.resourceType edge.index).any fun physical => resource.At physical ℓ

def requests (c : CompiledGraph) (managed : Nat → Option Nat) (edges : List CompiledEdge)
    (ℓ : Location) : List ResourceState :=
  (edges.filter fun edge => c.Touches managed edge ℓ).map (·.usage)

def Fits (c : CompiledGraph) (managed : Nat → Option Nat) (m : Memory) (edge : CompiledEdge) :
    Prop :=
  ∀ resource physical, c.resources[edge.index]? = some resource →
    resource.resourceType = .texture → edge.usage ≠ .undefined →
    resource.manageType ≠ .subResource → c.getTexture managed edge.index = some physical →
    m.Fits physical resource.mipCount edge.usage

def FitsAll (c : CompiledGraph) (managed : Nat → Option Nat) : List CompiledEdge → Memory → Prop
  | [], _ => True
  | edge :: edges, m => c.Fits managed m edge ∧
    ∀ m' emissions, c.placeBarrier managed m edge = some (m', emissions) →
      c.FitsAll managed edges m'

variable {c : CompiledGraph} {managed : Nat → Option Nat} {edge : CompiledEdge}

lemma requests_append (c : CompiledGraph) (managed : Nat → Option Nat) (edges edges' : List CompiledEdge)
    (ℓ : Location) : c.requests managed (edges ++ edges') ℓ =
      c.requests managed edges ℓ ++ c.requests managed edges' ℓ := by
  rw [requests, List.filter_append, List.map_append]
  rfl

lemma requests_singleton (c : CompiledGraph) (managed : Nat → Option Nat) (edge : CompiledEdge)
    (ℓ : Location) :
    c.requests managed [edge] ℓ = if c.Touches managed edge ℓ then [edge.usage] else [] := by
  rw [requests, List.filter_singleton]
  cases c.Touches managed edge ℓ <;> rfl

lemma placeBarrier_spec (consistent : m.Consistent)
    (e : c.placeBarrier managed m edge = some (m', emissions)) :
    Tracks m m' emissions (c.requests managed [edge]) ∧ m'.Consistent ∧
      ((∀ emission ∈ emissions, emission.Exact) ↔ c.Fits managed m edge) := by
  unfold placeBarrier at e
  simp only [Option.bind_eq_bind, Option.bind_eq_some_iff] at e
  obtain ⟨resource, hresource, e⟩ := e
  split at e
  · rename_i hu
    cases e
    have hnone : c.requests managed [edge] = fun _ => [] := by
      funext ℓ
      rw [requests_singleton, Touches, hu]
      rfl
    rw [hnone]
    exact ⟨.refl _, consistent, iff_of_true (List.forall_mem_nil _) fun _ _ _ _ hne => absurd hu hne⟩
  · rename_i hu
    simp only [Option.bind_eq_some_iff] at e
    obtain ⟨physical, hphysical, e⟩ := e
    have hrequests : ∀ ℓ, c.requests managed [edge] ℓ =
        if resource.At physical ℓ then [edge.usage] else [] := by
      intro ℓ
      simp [requests_singleton, Touches, hresource, hphysical, hu]
    cases htype : resource.resourceType with
    | texture =>
      simp only [htype] at e
      have hoff : ∀ ℓ, (∀ entry, ℓ ≠ .texture physical entry) →
          c.requests managed [edge] ℓ = [] := by
        intro ℓ hℓ
        rw [hrequests]
        cases ℓ with
        | texture texture entry =>
          have hne : texture ≠ physical := fun he => hℓ entry (he ▸ rfl)
          simp [CompiledResource.At, hne]
        | buffer buffer => simp [CompiledResource.At, htype]
      split at e
      · rename_i hwhole
        have hfits : c.Fits managed m edge ↔ m.Fits physical resource.mipCount edge.usage := by
          rw [htype] at hphysical
          constructor
          · exact fun h => h resource physical hresource htype hu hwhole hphysical
          · intro h resource' physical' hresource' _ _ _ hphysical'
            rw [hresource] at hresource'
            cases hresource'
            rw [show c.getTexture managed edge.index = some physical from hphysical] at hphysical'
            cases hphysical'
            exact h
        rw [hfits]
        refine Memory.placeTexture_spec consistent e ?_ hoff
        intro entry
        rw [hrequests]
        simp [CompiledResource.At, htype, hwhole]
      · rename_i hsub
        have hon : ∀ entry, c.requests managed [edge] (.texture physical entry) =
            if entry = resource.mipLevel + resource.arraySlice * resource.mipCount then
              [edge.usage] else [] := by
          intro entry
          rw [hrequests]
          simp [CompiledResource.At, htype, not_not.mp hsub]
        obtain ⟨htracks, hconsistent, hexact⟩ := Memory.placeSubresource_spec consistent e hon hoff
        refine ⟨htracks, hconsistent, iff_of_true hexact ?_⟩
        intro resource' _ hresource' _ _ hwhole _
        rw [hresource] at hresource'
        cases hresource'
        exact absurd hwhole hsub
    | buffer =>
      simp only [htype, Option.pure_def, Option.some.injEq] at e
      have hon : c.requests managed [edge] (.buffer physical) = [edge.usage] := by
        rw [hrequests]
        simp [CompiledResource.At, htype]
      have hoff : ∀ ℓ, ℓ ≠ .buffer physical → c.requests managed [edge] ℓ = [] := by
        intro ℓ hℓ
        rw [hrequests]
        cases ℓ with
        | texture texture entry => simp [CompiledResource.At, htype]
        | buffer buffer =>
          have hne : buffer ≠ physical := fun he => hℓ (he ▸ rfl)
          simp [CompiledResource.At, hne]
      obtain ⟨htracks, hconsistent, hexact⟩ := Memory.placeBuffer_spec consistent hon hoff
      rw [e] at htracks hconsistent hexact
      refine ⟨htracks, hconsistent, iff_of_true hexact ?_⟩
      intro resource' _ hresource' htexture
      rw [hresource] at hresource'
      cases hresource'
      cases htype.symm.trans htexture

lemma placeEdges_spec {edges : List CompiledEdge} (consistent : m.Consistent)
    (e : c.placeEdges managed edges m = some (m', emissions)) :
    Tracks m m' emissions (c.requests managed edges) ∧ m'.Consistent ∧
      ((∀ emission ∈ emissions, emission.Exact) ↔ c.FitsAll managed edges m) := by
  induction edges generalizing m emissions with
  | nil =>
    cases e
    exact ⟨.refl _, consistent, iff_of_true (List.forall_mem_nil _) trivial⟩
  | cons edge edges ih =>
    simp only [placeEdges, Option.bind_eq_bind, Option.bind_eq_some_iff, Option.pure_def,
      Option.some.injEq, Prod.mk.injEq] at e
    obtain ⟨⟨m₁, es₁⟩, e₁, ⟨m₂, es₂⟩, e₂, rfl, rfl⟩ := e
    obtain ⟨htracks₁, consistent₁, hexact₁⟩ := placeBarrier_spec consistent e₁
    obtain ⟨htracks₂, consistent₂, hexact₂⟩ := ih consistent₁ e₂
    have hrequests : c.requests managed (edge :: edges) =
        fun ℓ => c.requests managed [edge] ℓ ++ c.requests managed edges ℓ := by
      funext ℓ
      rw [← requests_append, List.singleton_append]
    refine ⟨hrequests ▸ htracks₁.trans htracks₂, consistent₂, ?_⟩
    have hall : c.FitsAll managed (edge :: edges) m ↔
        c.Fits managed m edge ∧ c.FitsAll managed edges m₁ := by
      rw [FitsAll]
      refine and_congr_right fun _ => ⟨fun h => h m₁ es₁ e₁, ?_⟩
      intro h m' es' e'
      rw [e₁] at e'
      cases e'
      exact h
    simp only [hall, ← hexact₁, ← hexact₂, List.mem_append, or_imp, forall_and]

end CompiledGraph

/-- A call of `place_barriers`. -/
structure Call where
  graph : CompiledGraph
  managed : Nat → Option Nat
  pass : CompiledPass

namespace Call

def place (call : Call) (m : Memory) : Option (Memory × List Emission) :=
  call.graph.placeBarriers call.managed call.pass m

def accesses (call : Call) (ℓ : Location) : List CompiledEdge :=
  (call.pass.reads ++ call.pass.writes).filter fun edge => call.graph.Touches call.managed edge ℓ

def Fits (call : Call) (m : Memory) : Prop :=
  call.graph.FitsAll call.managed (call.pass.reads ++ call.pass.writes) m

def placeAll : List Call → Memory → Option (Memory × List Emission)
  | [], m => some (m, [])
  | call :: calls, m => do
    let (m, emissions) ← call.place m
    let (m, more) ← placeAll calls m
    return (m, emissions ++ more)

def AllFit : List Call → Memory → Prop
  | [], _ => True
  | call :: calls, m =>
    call.Fits m ∧ ∀ m' emissions, call.place m = some (m', emissions) → AllFit calls m'

/-- After a call, a location is in the state that the last edge that accesses it requests, and the other
locations are as they were. -/
def Tracked (call : Call) (m m' : Memory) : Prop :=
  ∀ ℓ, m.state ℓ ≠ none → m'.state ℓ = match (call.accesses ℓ).getLast? with
    | none => m.state ℓ
    | some edge => some edge.usage

variable {call : Call} {calls : List Call}

lemma place_spec (consistent : m.Consistent) (e : call.place m = some (m', emissions)) :
    call.Tracked m m' ∧ m'.Consistent ∧ ((∀ emission ∈ emissions, emission.Exact) ↔ call.Fits m) := by
  obtain ⟨htracks, hconsistent, hexact⟩ := CompiledGraph.placeEdges_spec consistent e
  refine ⟨?_, hconsistent, hexact⟩
  intro ℓ hℓ
  obtain ⟨s, hs⟩ := Option.ne_none_iff_exists'.mp hℓ
  rw [htracks.state hs, tracked, CompiledGraph.requests, List.getLast?_map, hs]
  show some (((call.accesses ℓ).getLast?.map (·.usage)).getD s) = _
  cases (call.accesses ℓ).getLast? <;> rfl

lemma placeAll_spec (consistent : m.Consistent) (e : placeAll calls m = some (m', emissions)) :
    m'.Consistent ∧ ((∀ emission ∈ emissions, emission.Exact) ↔ AllFit calls m) := by
  induction calls generalizing m emissions with
  | nil =>
    cases e
    exact ⟨consistent, iff_of_true (List.forall_mem_nil _) trivial⟩
  | cons call calls ih =>
    simp only [placeAll, Option.bind_eq_bind, Option.bind_eq_some_iff, Option.pure_def,
      Option.some.injEq, Prod.mk.injEq] at e
    obtain ⟨⟨m₁, es₁⟩, e₁, ⟨m₂, es₂⟩, e₂, rfl, rfl⟩ := e
    obtain ⟨-, consistent₁, hexact₁⟩ := place_spec consistent e₁
    obtain ⟨consistent₂, hexact₂⟩ := ih consistent₁ e₂
    refine ⟨consistent₂, ?_⟩
    have hall : AllFit (call :: calls) m ↔ call.Fits m ∧ AllFit calls m₁ := by
      refine and_congr_right fun _ => ⟨fun h => h m₁ es₁ e₁, ?_⟩
      intro h m' es' e'
      rw [e₁] at e'
      cases e'
      exact h
    simp only [hall, ← hexact₁, ← hexact₂, List.mem_append, or_imp, forall_and]

/-- **Barrier state tracking.** In every sequence of calls, from tracked states where the textures whose
flag is set are in one state, the last call leaves every location in the state that the pass
requested last, and the textures whose flag is set in one state. The barriers of the sequence have
the tracked state of exactly what they name as their source if and only if the accesses to whole
textures fit. -/
theorem place_tracked (consistent : m.Consistent) (e : placeAll calls m = some (m', emissions))
    (last : call.place m' = some (m'', more)) :
    ((∀ emission ∈ emissions ++ more, emission.Exact) ↔ AllFit calls m ∧ call.Fits m') ∧
      call.Tracked m' m'' ∧ m'.Consistent ∧ m''.Consistent := by
  obtain ⟨consistent', hexact⟩ := placeAll_spec consistent e
  obtain ⟨htracked, consistent'', hexact'⟩ := place_spec consistent' last
  refine ⟨?_, htracked, consistent', consistent''⟩
  simp only [← hexact, ← hexact', List.mem_append, or_imp, forall_and]

def deepTexture : CompiledGraph where
  resources := [.new, { CompiledResource.new with mipCount := 1 },
    { CompiledResource.new with manageType := .subResource, mipCount := 1, parent := 1 }]
  passes := []

def reading (i : Nat) (usage : ResourceState) : Call where
  graph := deepTexture
  managed := fun _ => some 0
  pass := { CompiledPass.new with reads := [⟨i, usage⟩] }

def newTextures (layers : Nat) : Memory :=
  ⟨fun _ => ⟨List.replicate layers .undefined, true⟩, fun _ => .undefined⟩

lemma consistent_newTextures (layers : Nat) : (newTextures layers).Consistent := by
  intro texture _ s hs s' hs'
  rw [List.eq_of_mem_replicate hs, List.eq_of_mem_replicate hs']

/-- The first of two layers is sampled, and then both are copied. -/
theorem place_tracked_twoLayers : ∃ m' m'' emissions more,
    placeAll [reading 2 .shaderResource] (newTextures 2) = some (m', emissions) ∧
    (reading 1 .copySource).place m' = some (m'', more) ∧
    ((∀ emission ∈ emissions ++ more, emission.Exact) ↔
      AllFit [reading 2 .shaderResource] (newTextures 2) ∧ (reading 1 .copySource).Fits m') ∧
      (reading 1 .copySource).Tracked m' m'' ∧ m'.Consistent ∧ m''.Consistent := by
  obtain ⟨⟨m', emissions⟩, e⟩ : ∃ r, placeAll [reading 2 .shaderResource] (newTextures 2) = some r :=
    ⟨_, rfl⟩
  have hlast : ∀ r ∈ placeAll [reading 2 .shaderResource] (newTextures 2),
      ((reading 1 .copySource).place r.1).isSome := by
    decide
  obtain ⟨⟨m'', more⟩, last⟩ := Option.isSome_iff_exists.mp (hlast _ e)
  exact ⟨m', m'', emissions, more, e, last, place_tracked (consistent_newTextures 2) e last⟩

/-- When the first of 257 layers is sampled and then all are copied, the last barrier names the first
layer and has the state of the last one. -/
theorem not_place_tracked : ¬ ∀ (m m' m'' : Memory) (calls : List Call) (call : Call)
    (emissions more : List Emission), m.Consistent →
    placeAll calls m = some (m', emissions) → call.place m' = some (m'', more) →
    (∀ emission ∈ emissions ++ more, emission.Exact) ∧ call.Tracked m' m'' ∧ m''.Consistent := by
  intro h
  have hfirst : ∀ r ∈ placeAll [reading 2 .shaderResource] (newTextures 257),
      ((reading 1 .copySource).place r.1).isSome ∧
        (r.1.textures (.pooled 0)).statesConsistent = false ∧
        (r.1.textures (.pooled 0)).curStates.length = 257 ∧
        (r.1.textures (.pooled 0)).curStates[256]? = some .undefined := by
    decide +kernel
  obtain ⟨⟨m', emissions⟩, e⟩ :
      ∃ r, placeAll [reading 2 .shaderResource] (newTextures 257) = some r := ⟨_, rfl⟩
  obtain ⟨hlast, hflag, hlength, hcur⟩ := hfirst _ e
  obtain ⟨⟨m'', more⟩, last⟩ := Option.isSome_iff_exists.mp hlast
  obtain ⟨hexact, -⟩ := h _ _ _ _ _ _ _ (consistent_newTextures 257) e last
  obtain ⟨consistent, -⟩ := placeAll_spec (consistent_newTextures 257) e
  obtain ⟨-, -, hfits⟩ := place_spec consistent last
  obtain ⟨hwhole, -⟩ := hfits.mp fun emission hm => hexact emission (List.mem_append_right _ hm)
  cases hwhole _ (.pooled 0) rfl rfl nofun nofun rfl with
  | inl hconsistent => rw [hflag] at hconsistent; cases hconsistent
  | inr hrest =>
    cases hrest with
    | inl hone => rw [hlength] at hone; cases hone
    | inr hall => exact absurd (hall 256 _ hcur nofun).2 (by decide)

end Call

end PulseEngine.RenderGraph
