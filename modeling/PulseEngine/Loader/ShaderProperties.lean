import PulseEngine.Graphics.Encoder
import PulseEngine.Library.ByteRange
import PulseEngine.Library.LowerBound

/-!
# Shader property validation

`validate_shader_properties_declare` of `loader/create_shader.cpp`. The declared properties are sorted by set,
binding and offset, and every one is compared with what its neighbour left in `prev_set`, `prev_binding` and
`prev_end`. `RootSignature.Admits` says of all pairs of properties what the loop says of neighbours.
-/

namespace PulseEngine.Loader

open Library
open Graphics (ResourceType)

def setCount : UInt32 := 4

/-- `EPulseShaderPropertyType`. -/
inductive ShaderPropertyType where
  | unknown
  | float
  | float2
  | float3
  | float4
  | int
  | mat4
  | texture
  | sampler
  | count
  deriving DecidableEq, Repr

def ShaderPropertyType.isUniform : ShaderPropertyType → Bool
  | .float | .float2 | .float3 | .float4 | .int | .mat4 => true
  | _ => false

/-- `PulseShaderProperty`; the name may be null. -/
structure ShaderProperty where
  name : Option String
  type : ShaderPropertyType
  set : UInt32
  binding : UInt32
  offset : UInt32
  size : UInt32
  deriving DecidableEq, Repr

/-- `CGPUShaderResource`. -/
structure ShaderResource where
  type : ResourceType
  binding : UInt32
  size : UInt32
  deriving DecidableEq, Repr

/-- `CGPUParameterTable`. -/
structure ParameterTable where
  setIndex : UInt32
  resources : List ShaderResource
  deriving DecidableEq, Repr

/-- `CGPURootSignature`. -/
structure RootSignature where
  tables : List ParameterTable
  deriving DecidableEq, Repr

def findShaderResource (rootSig : RootSignature) (set binding : UInt32) : Option ShaderResource :=
  rootSig.tables.findSome? fun table =>
    if table.setIndex ≠ set then none else table.resources.find? fun res => res.binding = binding

def propertyTypeMatchesResource (type : ShaderPropertyType) (resType : ResourceType) : Bool :=
  if type = .texture then resType = .texture
  else if type = .sampler then resType = .sampler
  else type.isUniform && (resType = .uniformBuffer || resType = .rwBuffer)

def ShaderProperty.before (a b : ShaderProperty) : Bool :=
  if a.set ≠ b.set then a.set < b.set
  else if a.binding ≠ b.binding then a.binding < b.binding
  else a.offset < b.offset

def ShaderProperty.place (p : ShaderProperty) : ℕ := p.set.toNat * 2 ^ 32 + p.binding.toNat

def ShaderProperty.sortKey (p : ShaderProperty) : ℕ := p.place * 2 ^ 32 + p.offset.toNat

/-- `prev_set`, `prev_binding` and `prev_end`. -/
structure Previous where
  set : UInt32 := .ofNat (2 ^ 32 - 1)
  binding : UInt32 := .ofNat (2 ^ 32 - 1)
  stop : UInt32 := 0
  deriving DecidableEq, Repr

/-- One turn of the loop: what it keeps for the next one, or the `validation_error`. -/
def validateProperty (rootSig : RootSignature) (prev : Previous) (p : ShaderProperty) :
    Except String Previous :=
  if p.set ≥ setCount then .error "shader create loader: property set index out of range"
  else
    match findShaderResource rootSig p.set p.binding with
    | none => .error "shader create loader: property binding not found in root signature"
    | some res =>
      if propertyTypeMatchesResource p.type res.type = false then
        .error "shader create loader: property type does not match root signature resource"
      else
        let prev := if p.set ≠ prev.set ∨ p.binding ≠ prev.binding then ⟨p.set, p.binding, 0⟩ else prev
        if p.type.isUniform = false then .ok prev
        else if p.offset > res.size ∨ p.size > res.size - p.offset then
          .error "shader create loader: property range out of UBO bounds"
        else if p.offset < prev.stop then .error "shader create loader: overlapping property ranges"
        else .ok { prev with stop := p.offset + p.size }

def validateShaderPropertiesDeclare (std : StdSort) (rootSig : RootSignature) (props : List ShaderProperty) :
    Except String (List ShaderProperty) :=
  let sorted := std.sortBy ShaderProperty.sortKey props
  if rootSig.tables.any fun table => table.setIndex ≥ setCount then
    .error "shader create loader: root signature set index out of range"
  else do
    let _ ← sorted.foldlM (validateProperty rootSig) {}
    pure sorted

def ShaderProperty.range (p : ShaderProperty) : ByteRange := ⟨p.offset.toNat, p.size.toNat⟩

def RootSignature.resourceAt (rootSig : RootSignature) (set binding : UInt32) : Option ShaderResource :=
  ((rootSig.tables.filter (·.setIndex = set)).flatMap (·.resources)).find? (·.binding = binding)

inductive TypeMatches : ShaderPropertyType → ResourceType → Prop
  | texture : TypeMatches .texture .texture
  | sampler : TypeMatches .sampler .sampler
  | uniform {type : ShaderPropertyType} {resType : ResourceType} :
    type.isUniform = true → resType.isBuffer = true → TypeMatches type resType

def ShaderProperty.Share (p q : ShaderProperty) : Prop :=
  p.type.isUniform = true ∧ q.type.isUniform = true ∧ p.set = q.set ∧ p.binding = q.binding

structure RootSignature.Admits (rootSig : RootSignature) (props : List ShaderProperty) : Prop where
  tables : ∀ table ∈ rootSig.tables, table.setIndex < setCount
  sets : ∀ p ∈ props, p.set < setCount
  resources : ∀ p ∈ props, ∃ res, rootSig.resourceAt p.set p.binding = some res ∧
    TypeMatches p.type res.type ∧ (p.type.isUniform = true → p.range.stop ≤ res.size.toNat)
  apart : props.Pairwise fun p q => p.Share q → p.range.Apart q.range

variable {rootSig : RootSignature} {p q : ShaderProperty} {props sorted : List ShaderProperty} {prev : Previous}

lemma place_eq_iff : p.place = q.place ↔ p.set = q.set ∧ p.binding = q.binding := by
  have hp := p.binding.toNat_lt
  have hq := q.binding.toNat_lt
  rw [← UInt32.toNat_inj, ← UInt32.toNat_inj]
  unfold ShaderProperty.place
  omega

lemma le_of_sortKey_le (h : p.sortKey ≤ q.sortKey) :
    p.place ≤ q.place ∧ (p.place = q.place → p.range.offset ≤ q.range.offset) := by
  have hp := p.offset.toNat_lt
  have hq := q.offset.toNat_lt
  change p.place ≤ q.place ∧ (p.place = q.place → p.offset.toNat ≤ q.offset.toNat)
  unfold ShaderProperty.sortKey at h
  omega

lemma findShaderResource_eq (set binding : UInt32) :
    findShaderResource rootSig set binding = rootSig.resourceAt set binding := by
  unfold findShaderResource RootSignature.resourceAt
  induction rootSig.tables with
  | nil => rfl
  | cons table tables ih =>
    by_cases h : table.setIndex = set
    · rw [List.findSome?_cons, List.filter_cons_of_pos (by simpa using h), List.flatMap_cons, List.find?_append, ← ih,
        if_neg (not_not.mpr h)]
      cases table.resources.find? (·.binding = binding) with
      | none => rfl
      | some res => rfl
    · rw [List.findSome?_cons, List.filter_cons_of_neg (by simpa using h), ← ih, if_pos h]

lemma propertyTypeMatchesResource_iff {type : ShaderPropertyType} {resType : ResourceType} :
    propertyTypeMatchesResource type resType = true ↔ TypeMatches type resType := by
  constructor
  · intro h
    cases type <;> cases resType <;> first | exact .texture | exact .sampler | exact .uniform rfl rfl | cases h
  · intro h
    cases h with
    | texture => rfl
    | sampler => rfl
    | uniform huniform hbuffer =>
      revert huniform hbuffer
      cases type <;> cases resType <;> decide

lemma TypeMatches.isUniform_iff {type : ShaderPropertyType} {resType : ResourceType}
    (h : TypeMatches type resType) : type.isUniform = true ↔ resType.isBuffer = true := by
  cases h with
  | texture => decide
  | sampler => decide
  | uniform huniform hbuffer => exact iff_of_true huniform hbuffer

def RootSignature.Fits (rootSig : RootSignature) (p : ShaderProperty) : Prop :=
  p.set < setCount ∧ ∃ res, rootSig.resourceAt p.set p.binding = some res ∧
    TypeMatches p.type res.type ∧ (p.type.isUniform = true → p.range.stop ≤ res.size.toNat)

lemma RootSignature.Fits.isUniform (hp : rootSig.Fits p) (hq : rootSig.Fits q) (h : p.place = q.place)
    (huniform : q.type.isUniform = true) : p.type.isUniform = true := by
  obtain ⟨-, res, hres, hmatch, -⟩ := hp
  obtain ⟨-, res', hres', hmatch', -⟩ := hq
  obtain ⟨hset, hbinding⟩ := place_eq_iff.mp h
  rw [hset, hbinding, hres'] at hres
  cases hres
  exact hmatch.isUniform_iff.mpr (hmatch'.isUniform_iff.mp huniform)

lemma bounds_iff {offset size limit : UInt32} :
    ¬ (offset > limit ∨ size > limit - offset) ↔ offset.toNat + size.toNat ≤ limit.toNat := by
  rw [not_or, gt_iff_lt, gt_iff_lt, UInt32.not_lt, UInt32.not_lt, UInt32.le_iff_toNat_le]
  constructor
  · rintro ⟨hoffset, hsize⟩
    rw [UInt32.le_iff_toNat_le, UInt32.toNat_sub_of_le _ _ (UInt32.le_iff_toNat_le.mpr hoffset)] at hsize
    omega
  · intro h
    have hoffset : offset.toNat ≤ limit.toNat := by omega
    refine ⟨hoffset, ?_⟩
    rw [UInt32.le_iff_toNat_le, UInt32.toNat_sub_of_le _ _ (UInt32.le_iff_toNat_le.mpr hoffset)]
    omega

def Previous.place (prev : Previous) : ℕ := prev.set.toNat * 2 ^ 32 + prev.binding.toNat

def Previous.bound (prev : Previous) (p : ShaderProperty) : ℕ :=
  if p.place = prev.place then prev.stop.toNat else 0

def Previous.next (prev : Previous) (p : ShaderProperty) : Previous :=
  ⟨p.set, p.binding, if p.type.isUniform then p.offset + p.size else .ofNat (prev.bound p)⟩

lemma Previous.place_next : (prev.next p).place = p.place := rfl

lemma Previous.place_ne_iff : (p.set ≠ prev.set ∨ p.binding ≠ prev.binding) ↔ p.place ≠ prev.place := by
  have h : p.place = prev.place ↔ p.set = prev.set ∧ p.binding = prev.binding :=
    place_eq_iff (q := ⟨none, .unknown, prev.set, prev.binding, 0, 0⟩)
  rw [Ne, Ne, Ne, h, not_and_or]

lemma Previous.here_eq :
    (if p.set ≠ prev.set ∨ p.binding ≠ prev.binding then ⟨p.set, p.binding, 0⟩ else prev) =
      (⟨p.set, p.binding, .ofNat (prev.bound p)⟩ : Previous) := by
  unfold Previous.bound
  by_cases hplace : p.set ≠ prev.set ∨ p.binding ≠ prev.binding
  · rw [if_pos hplace, if_neg (Previous.place_ne_iff.mp hplace)]
    rfl
  · rw [if_neg hplace, if_pos (not_not.mp fun h => hplace (Previous.place_ne_iff.mpr h)), UInt32.ofNat_toNat]
    rw [not_or, not_not, not_not] at hplace
    rw [hplace.1, hplace.2]

lemma Previous.bound_next (fits : rootSig.Fits p) (huniform : p.type.isUniform = true) :
    (prev.next p).bound q = if q.place = p.place then p.range.stop else 0 := by
  obtain ⟨-, res, -, -, hstop⟩ := fits
  have hlt := (hstop huniform).trans_lt res.size.toNat_lt
  have hsum : (p.offset + p.size).toNat = p.range.stop := by
    rw [UInt32.toNat_add]
    exact Nat.mod_eq_of_lt hlt
  rw [Previous.bound, Previous.place_next, Previous.next, if_pos huniform, hsum]

lemma validateProperty_eq_ok {next : Previous} : validateProperty rootSig prev p = .ok next ↔
    rootSig.Fits p ∧ (p.type.isUniform = true → prev.bound p ≤ p.range.offset) ∧ next = prev.next p := by
  unfold validateProperty RootSignature.Fits
  rw [findShaderResource_eq]
  by_cases hset : p.set ≥ setCount
  · rw [if_pos hset]
    exact iff_of_false nofun fun h => UInt32.not_lt.mpr hset h.1.1
  rw [if_neg hset, and_iff_right (UInt32.not_le.mp hset)]
  cases rootSig.resourceAt p.set p.binding with
  | none => exact iff_of_false nofun fun h => by obtain ⟨⟨_, h, _⟩, _⟩ := h; cases h
  | some res =>
    simp only [Option.some.injEq, exists_eq_left', ← propertyTypeMatchesResource_iff]
    cases propertyTypeMatchesResource p.type res.type with
    | false => exact iff_of_false nofun fun h => by cases h.1.1
    | true =>
      rw [if_neg (by decide), Previous.here_eq]
      unfold Previous.next
      cases p.type.isUniform with
      | false => simp [eq_comm]
      | true =>
        have hbound : (UInt32.ofNat (prev.bound p)).toNat = prev.bound p := by
          refine UInt32.toNat_ofNat_of_lt' (lt_of_le_of_lt ?_ prev.stop.toNat_lt)
          unfold Previous.bound
          split <;> omega
        rw [if_neg (by decide)]
        by_cases hout : p.offset > res.size ∨ p.size > res.size - p.offset
        · rw [if_pos hout]
          exact iff_of_false nofun fun h => bounds_iff.not.mp (not_not.mpr hout) (h.1.2 rfl)
        rw [if_neg hout]
        by_cases hearly : p.offset < .ofNat (prev.bound p)
        · rw [if_pos hearly]
          rw [UInt32.lt_iff_toNat_lt, hbound] at hearly
          exact iff_of_false nofun fun h => absurd (h.2.1 rfl) (not_le.mpr hearly)
        · rw [if_neg hearly]
          rw [UInt32.lt_iff_toNat_lt, hbound, not_lt] at hearly
          refine ⟨fun h => ⟨⟨rfl, fun _ => bounds_iff.mp hout⟩, fun _ => hearly, ?_⟩, fun h => ?_⟩
          · exact (Except.ok.inj h).symm
          · exact congrArg Except.ok h.2.2.symm

def ShaderProperty.Ends (p q : ShaderProperty) : Prop := p.Share q → p.range.stop ≤ q.range.offset

lemma Previous.bound_of_ne (after : prev.stop = 0 ∨ prev.place ≤ p.place) (le : p.place ≤ q.place)
    (ne : q.place ≠ p.place) : prev.bound q = 0 := by
  rw [Previous.bound]
  split
  · next hplace =>
    obtain hstop | hafter := after
    · rw [hstop]
      rfl
    · exact absurd (le_antisymm (hplace.trans_le hafter) le) ne
  · rfl

lemma Previous.bound_next_le_iff (hp : rootSig.Fits p) (hq : rootSig.Fits q) (huniform : q.type.isUniform = true)
    (start : p.type.isUniform = true → prev.bound p ≤ p.range.offset)
    (after : prev.stop = 0 ∨ prev.place ≤ p.place) (le : p.place ≤ q.place) :
    (prev.next p).bound q ≤ q.range.offset ↔ prev.bound q ≤ q.range.offset ∧ p.Ends q := by
  by_cases hplace : q.place = p.place
  · have hshare := hp.isUniform hq hplace.symm huniform
    have hends : p.Ends q ↔ p.range.stop ≤ q.range.offset :=
      ⟨fun h => h ⟨hshare, huniform, place_eq_iff.mp hplace.symm⟩, fun h _ => h⟩
    have hbound : prev.bound q = prev.bound p := by rw [Previous.bound, Previous.bound, hplace]
    rw [Previous.bound_next hp hshare, if_pos hplace, hends, hbound]
    refine ⟨fun h => ⟨?_, h⟩, And.right⟩
    calc prev.bound p ≤ p.range.offset := start hshare
      _ ≤ p.range.stop := Nat.le_add_right _ _
      _ ≤ q.range.offset := h
  · have hnext : (prev.next p).bound q = 0 := by rw [Previous.bound, Previous.place_next, if_neg hplace]
    rw [hnext, Previous.bound_of_ne after le hplace]
    have hends : p.Ends q := fun h => absurd (place_eq_iff.mpr ⟨h.2.2.1.symm, h.2.2.2.symm⟩) hplace
    exact iff_of_true (Nat.zero_le _) ⟨Nat.zero_le _, hends⟩

/-- **The loop** accepts properties in order when each of them fits, none begins before the bound that the loop
starts with, and each ends before any later one begins. -/
theorem validateProperties_iff (ordered : sorted.Pairwise fun p q => p.sortKey ≤ q.sortKey)
    (after : prev.stop = 0 ∨ ∀ p ∈ sorted, prev.place ≤ p.place) :
    (∃ last, sorted.foldlM (validateProperty rootSig) prev = .ok last) ↔
      (∀ p ∈ sorted, rootSig.Fits p) ∧
      (∀ p ∈ sorted, p.type.isUniform = true → prev.bound p ≤ p.range.offset) ∧
      sorted.Pairwise ShaderProperty.Ends := by
  induction sorted generalizing prev with
  | nil => exact iff_of_true ⟨prev, rfl⟩ ⟨nofun, nofun, .nil⟩
  | cons p sorted ih =>
    rw [List.pairwise_cons] at ordered
    have hafter : prev.stop = 0 ∨ prev.place ≤ p.place := after.imp_right fun h => h p (List.mem_cons_self ..)
    have hle : ∀ q ∈ sorted, p.place ≤ q.place := fun q hq => (le_of_sortKey_le (ordered.1 q hq)).1
    have hnext := @ih (prev.next p) ordered.2 (Or.inr hle)
    have hturn : (∃ last, (p :: sorted).foldlM (validateProperty rootSig) prev = .ok last) ↔
        rootSig.Fits p ∧ (p.type.isUniform = true → prev.bound p ≤ p.range.offset) ∧
        ∃ last, sorted.foldlM (validateProperty rootSig) (prev.next p) = .ok last := by
      rw [List.foldlM_cons]
      cases hstep : validateProperty rootSig prev p with
      | error e =>
        refine iff_of_false (fun ⟨_, h⟩ => by cases h) fun h => ?_
        rw [validateProperty_eq_ok.mpr ⟨h.1, h.2.1, rfl⟩] at hstep
        cases hstep
      | ok next =>
        obtain ⟨hfits, hstart, rfl⟩ := validateProperty_eq_ok.mp hstep
        exact ⟨fun h => ⟨hfits, hstart, h⟩, fun h => h.2.2⟩
    rw [hturn, hnext, List.pairwise_cons, List.forall_mem_cons, List.forall_mem_cons]
    constructor
    · rintro ⟨hfits, hstart, hall, hbounds, hpairs⟩
      have hiff := fun q hq (hu : q.type.isUniform = true) =>
        Previous.bound_next_le_iff hfits (hall q hq) hu hstart hafter (hle q hq)
      refine ⟨⟨hfits, hall⟩, ⟨hstart, fun q hq hu => ((hiff q hq hu).mp (hbounds q hq hu)).1⟩, fun q hq hs => ?_, hpairs⟩
      exact ((hiff q hq hs.2.1).mp (hbounds q hq hs.2.1)).2 hs
    · rintro ⟨⟨hfits, hall⟩, ⟨hstart, hbounds⟩, hends, hpairs⟩
      refine ⟨hfits, hstart, hall, fun q hq hu => ?_, hpairs⟩
      exact (Previous.bound_next_le_iff hfits (hall q hq) hu hstart hafter (hle q hq)).mpr
        ⟨hbounds q hq hu, hends q hq⟩

lemma admits_iff : rootSig.Admits props ↔ (∀ table ∈ rootSig.tables, table.setIndex < setCount) ∧
    (∀ p ∈ props, rootSig.Fits p) ∧ props.Pairwise fun p q => p.Share q → p.range.Apart q.range :=
  ⟨fun h => ⟨h.tables, fun p hp => ⟨h.sets p hp, h.resources p hp⟩, h.apart⟩,
    fun h => ⟨h.1, fun p hp => (h.2.1 p hp).1, fun p hp => (h.2.1 p hp).2, h.2.2⟩⟩

lemma ShaderProperty.Share.symm (h : p.Share q) : q.Share p := ⟨h.2.1, h.1, h.2.2.1.symm, h.2.2.2.symm⟩

lemma pairwise_apart_iff (ordered : sorted.Pairwise fun p q => p.sortKey ≤ q.sortKey)
    (sized : ∀ p ∈ sorted, p.type.isUniform = true → p.size ≠ 0) :
    (sorted.Pairwise fun p q => p.Share q → p.range.Apart q.range) ↔ sorted.Pairwise ShaderProperty.Ends := by
  have hiff : ∀ p q : ShaderProperty, q ∈ sorted → p.sortKey ≤ q.sortKey →
      ((p.Share q → p.range.Apart q.range) ↔ p.Ends q) := by
    intro p q hq hle
    refine forall_congr' fun hshare => ByteRange.apart_iff_of_le ?_ ?_
    · exact fun h => sized q hq hshare.2.1 (UInt32.toNat_inj.mp h)
    · exact (le_of_sortKey_le hle).2 (place_eq_iff.mpr hshare.2.2)
  constructor <;> intro h
  · exact (ordered.and h).imp_of_mem fun _ hq hboth => (hiff _ _ hq hboth.1).mp hboth.2
  · exact (ordered.and h).imp_of_mem fun _ hq hboth => (hiff _ _ hq hboth.1).mpr hboth.2

lemma validates_eq_ok {std : StdSort} : validateShaderPropertiesDeclare std rootSig props = .ok sorted ↔
    sorted = std.sortBy ShaderProperty.sortKey props ∧
      (∀ table ∈ rootSig.tables, table.setIndex < setCount) ∧
      ∃ last, sorted.foldlM (validateProperty rootSig) {} = .ok last := by
  unfold validateShaderPropertiesDeclare
  have htables : (rootSig.tables.any fun table => table.setIndex ≥ setCount) = true ↔
      ¬ ∀ table ∈ rootSig.tables, table.setIndex < setCount := by
    simp [List.any_eq_true]
  by_cases hany : (rootSig.tables.any fun table => table.setIndex ≥ setCount) = true
  · rw [if_pos hany]
    exact iff_of_false nofun fun h => htables.mp hany h.2.1
  · rw [if_neg hany, and_iff_right (not_not.mp (htables.not.mp hany))]
    cases hloop : (std.sortBy ShaderProperty.sortKey props).foldlM (validateProperty rootSig) {} with
    | error e =>
      refine iff_of_false nofun fun ⟨hsorted, last, hlast⟩ => ?_
      rw [hsorted, hloop] at hlast
      cases hlast
    | ok last =>
      constructor
      · intro h
        cases h
        exact ⟨rfl, last, hloop⟩
      · rintro ⟨rfl, -⟩
        rfl

/-- **What validation leaves**: the properties in order, each of which fits and ends before any later one begins. -/
theorem validates_spec {std : StdSort} (h : validateShaderPropertiesDeclare std rootSig props = .ok sorted) :
    sorted.Perm props ∧ (∀ p ∈ sorted, rootSig.Fits p) ∧ sorted.Pairwise ShaderProperty.Ends := by
  obtain ⟨rfl, -, hloop⟩ := validates_eq_ok.mp h
  obtain ⟨hfits, -, hends⟩ := (validateProperties_iff (std.ascending _ props) (Or.inl rfl)).mp hloop
  exact ⟨std.perm _ props, hfits, hends⟩

/-- **Validation decides what a layout admits**: whatever order the sort leaves equal offsets in, it accepts
properties that have bytes exactly when each of them names a resource of its type and lies inside of it, and no
two of them overlap. -/
theorem validates_iff (std : StdSort) (rootSig : RootSignature) (props : List ShaderProperty)
    (sized : ∀ p ∈ props, p.type.isUniform = true → p.size ≠ 0) :
    (∃ sorted, validateShaderPropertiesDeclare std rootSig props = .ok sorted) ↔ rootSig.Admits props := by
  have hperm := std.perm ShaderProperty.sortKey props
  have hordered := std.ascending ShaderProperty.sortKey props
  simp only [validates_eq_ok, exists_eq_left]
  rw [admits_iff, validateProperties_iff hordered (Or.inl rfl)]
  refine and_congr Iff.rfl ?_
  rw [← pairwise_apart_iff hordered fun p hp => sized p (hperm.mem_iff.mp hp),
    hperm.pairwise_iff fun h hs => (h hs.symm).symm]
  simp only [hperm.mem_iff]
  refine and_congr_right fun _ => and_iff_right fun p _ _ => ?_
  rw [Previous.bound, show ({} : Previous).stop = 0 from rfl]
  split <;> exact Nat.zero_le _

def litLayout : RootSignature := ⟨[⟨1, [⟨.uniformBuffer, 0, 96⟩, ⟨.texture, 1, 0⟩]⟩]⟩

def litProperties : List ShaderProperty :=
  [⟨some "tint", .float4, 1, 0, 64, 16⟩, ⟨some "albedo", .texture, 1, 1, 0, 0⟩, ⟨some "model", .mat4, 1, 0, 0, 64⟩]

theorem validates_iff_lit : litLayout.Admits litProperties :=
  (validates_iff .insertion litLayout litProperties (by decide)).mp ⟨_, rfl⟩

end PulseEngine.Loader
