import Mathlib.Logic.Relation
import PulseEngine.Datalist.Serializer

/-!
# The path array of the serializer

`emit_entry_list` and `emit_item_list` pass `path_len + 1` to `serialize_node` where their own caller
has counted the node already, so a node of depth `d` is written to cell `2 * d` and the cells between
are read without having been written. What the serializer promises about its path holds of exactly
those nodes that never make it look past cell 0.
-/

namespace PulseEngine.Datalist

variable {δ : Type} {doc : Document δ} {formatG : δ → Text} {n m c : NodeId}

def children (doc : Document δ) (n : NodeId) : List NodeId :=
  (doc n).entries.map (·.2) ++ (doc n).items

def Inside (doc : Document δ) (n m : NodeId) : Prop :=
  isContainer (doc n) = true ∧ m ∈ children doc n

/-- `m` is `depth` levels below `n`. -/
inductive Below (doc : Document δ) (n : NodeId) : Nat → NodeId → Prop where
  | root : Below doc n 0 n
  | inside {depth : Nat} {m c : NodeId} (outer : Below doc n depth m) (inner : Inside doc m c) :
    Below doc n (depth + 1) c

def HasCycle (doc : Document δ) (n : NodeId) : Prop :=
  ∃ m, Relation.ReflTransGen (Inside doc) n m ∧ Relation.TransGen (Inside doc) m m

/-- A container of the tree is nested deeper than `MAX_DEPTH`. -/
def TooDeep (doc : Document δ) (n : NodeId) : Prop :=
  ∃ depth m, maxDepth < depth ∧ Below doc n depth m ∧ isContainer (doc m) = true

/-- The accesses to the path array are sound, and the two errors are reported when they should be. -/
structure PathStackSound (doc : Document δ) (formatG : δ → Text) (n : NodeId) : Prop where
  sound : ∀ f, toText doc formatG n ≠ .error (.fault f)
  cycle : toText doc formatG n = .error (.error .cycle) ↔ HasCycle doc n
  layers : toText doc formatG n = .error (.error .tooManyLayers) ↔
    ¬ HasCycle doc n ∧ TooDeep doc n

def Flat (doc : Document δ) (n : NodeId) : Prop :=
  isContainer (doc n) = true → ∀ c, (children doc n).find? (fun c => isContainer (doc c)) = some c →
    c = n

lemma foldlM_stops {ε σ α : Type} {f : σ → α → Except ε σ} {I : σ → Prop} {p : α → Bool} {g : α → ε}
    (pass : ∀ s a, I s → p a = false → ∃ s', f s a = .ok s' ∧ I s')
    (stop : ∀ s a, I s → p a = true → f s a = .error (g a)) (as : List α) :
    ∀ s, I s → match as.find? p with
      | none => ∃ s', as.foldlM f s = .ok s' ∧ I s'
      | some a => as.foldlM f s = .error (g a) := by
  induction as with
  | nil => exact fun s hs => ⟨s, rfl, hs⟩
  | cons a as ih =>
    intro s hs
    rw [List.find?_cons, List.foldlM_cons]
    cases hp : p a with
    | true =>
      show f s a >>= _ = _
      rw [stop s a hs hp]
      rfl
    | false =>
      obtain ⟨s', hf, hs'⟩ := pass s a hs hp
      rw [hf]
      exact ih s' hs'

lemma serializeNode_scalar (hm : isContainer (doc m) = false) (left pathLen : Nat) (only : Bool)
    (e : Emit) : serializeNode doc formatG left pathLen only m e =
      .ok (e.append (scalarText formatG (doc m))) := by
  unfold serializeNode
  rw [hm]
  rfl

def rootPath (n : NodeId) : PathArray := Function.update PathArray.fresh 0 (some n)

/-- How the serializer of `n` ends at a container right inside it. -/
def stopAt (n c : NodeId) : Stop :=
  if n = c then .error .cycle else .fault (.readUnwritten 1)

lemma inPath_rootPath (n c : NodeId) :
    inPath (rootPath n) 2 c = if n = c then .ok true else .error (.fault (.readUnwritten 1)) := by
  have zero : PathArray.read (rootPath n) 0 = .ok n := by
    unfold PathArray.read rootPath
    rw [if_neg (by decide), Function.update_self]
  have one : PathArray.read (rootPath n) 1 = .error (.fault (.readUnwritten 1)) := by
    unfold PathArray.read rootPath
    rw [if_neg (by decide), Function.update_of_ne Nat.one_ne_zero]
    rfl
  unfold inPath
  rw [inPathFrom, zero]
  show (if n = c then _ else _) = _
  by_cases h : n = c
  · rw [if_pos h, if_pos h]
    rfl
  · rw [if_neg h, if_neg h, inPathFrom, one]
    rfl

lemma serializeNode_container (hc : isContainer (doc c) = true) (left : Nat) (only : Bool) {e : Emit}
    (he : e.path = rootPath n) :
    serializeNode doc formatG left 2 only c e = .error (stopAt n c) := by
  unfold serializeNode
  rw [hc, he, inPath_rootPath]
  unfold stopAt
  by_cases h : n = c
  · rw [if_pos h, if_pos h]
    rfl
  · rw [if_neg h, if_neg h]
    rfl

@[simp]
lemma Emit.append_path (e : Emit) (text : Text) : (e.append text).path = e.path := rfl

@[simp]
lemma Emit.separate_path (e : Emit) : e.separate.path = e.path := by
  unfold Emit.separate
  cases e.sep <;> rfl

lemma emitEntry_scalar {entry : Text × NodeId} (hc : isContainer (doc entry.2) = false) (left : Nat)
    {e : Emit} (he : e.path = rootPath n) :
    ∃ e', emitEntry doc (serializeNode doc formatG left) 1 e entry = .ok e' ∧
      e'.path = rootPath n := by
  have plain : (doc entry.2).type ≠ .mixed := by
    intro h
    simp [isContainer, h] at hc
  refine ⟨(e.separate.append (entry.1 ++ " : ".toList)).append (scalarText formatG (doc entry.2)),
    ?_, by simpa using he⟩
  unfold emitEntry
  rw [serializeNode_scalar hc]
  show (if _ then _ else _) = _
  rw [if_neg plain]
  rfl

lemma emitEntry_container {entry : Text × NodeId} (hc : isContainer (doc entry.2) = true)
    (left : Nat) {e : Emit} (he : e.path = rootPath n) :
    emitEntry doc (serializeNode doc formatG left) 1 e entry = .error (stopAt n entry.2) := by
  have path : (e.separate.append (entry.1 ++ " : ".toList)).path = rootPath n := by
    simpa using he
  unfold emitEntry
  rw [show 1 + 1 = 2 from rfl, serializeNode_container hc left _ path]
  rfl

lemma emitItem_scalar (hc : isContainer (doc c) = false) (left : Nat) {e : Emit}
    (he : e.path = rootPath n) :
    ∃ e', emitItem (serializeNode doc formatG left) 1 e c = .ok e' ∧ e'.path = rootPath n := by
  exact ⟨_, serializeNode_scalar hc _ _ _ _, by simpa using he⟩

lemma emitItem_container (hc : isContainer (doc c) = true) (left : Nat) {e : Emit}
    (he : e.path = rootPath n) :
    emitItem (serializeNode doc formatG left) 1 e c = .error (stopAt n c) := by
  unfold emitItem
  exact serializeNode_container hc _ _ (by simpa using he)

/-- **What becomes of a container.** The run ends at the first container right inside it. -/
lemma toText_container (formatG : δ → Text) (hn : isContainer (doc n) = true) :
    match (children doc n).find? (fun c => isContainer (doc c)) with
    | none => ∃ text, toText doc formatG n = .ok text
    | some c => toText doc formatG n = .error (stopAt n c) := by
  have entries := foldlM_stops (I := fun e : Emit => e.path = rootPath n)
    (f := emitEntry doc (serializeNode doc formatG maxDepth) 1)
    (p := fun entry : Text × NodeId => isContainer (doc entry.2)) (g := fun entry => stopAt n entry.2)
    (fun e entry he hc => emitEntry_scalar hc maxDepth he)
    (fun e entry he hc => emitEntry_container hc maxDepth he) (doc n).entries
    ⟨[], rootPath n, false⟩ rfl
  have items := foldlM_stops (I := fun e : Emit => e.path = rootPath n)
    (f := emitItem (serializeNode doc formatG maxDepth) 1)
    (p := fun c => isContainer (doc c)) (g := stopAt n)
    (fun e c he hc => emitItem_scalar hc maxDepth he)
    (fun e c he hc => emitItem_container hc maxDepth he) (doc n).items
  have text : toText doc formatG n =
      ((emitEntryList doc (serializeNode doc formatG maxDepth) 1 n ⟨[], rootPath n, false⟩ >>=
        emitItemList doc (serializeNode doc formatG maxDepth) 1 n).map (·.sb)) := by
    unfold toText
    rw [if_pos hn]
    rfl
  rw [text]
  unfold emitEntryList emitItemList children
  rw [List.find?_append, List.find?_map]
  cases he : (doc n).entries.find? (fun entry => isContainer (doc entry.2)) with
  | some entry =>
    rw [he] at entries
    simp only [Function.comp_def, he, Option.map_some, Option.some_or]
    rw [entries]
    rfl
  | none =>
    rw [he] at entries
    obtain ⟨e, hfold, hpath⟩ := entries
    have rest := items e hpath
    simp only [Function.comp_def, he, Option.map_none, Option.none_or]
    rw [hfold]
    cases hi : (doc n).items.find? (fun c => isContainer (doc c)) with
    | some c =>
      rw [hi] at rest
      show Except.map _ (List.foldlM _ _ _) = _
      rw [rest]
      rfl
    | none =>
      rw [hi] at rest
      obtain ⟨e', hfold', _⟩ := rest
      refine ⟨e'.sb, ?_⟩
      show Except.map _ (List.foldlM _ _ _) = _
      rw [hfold']
      rfl

lemma toText_scalar (hn : isContainer (doc n) = false) : ∃ text, toText doc formatG n = .ok text := by
  refine ⟨scalarText formatG (doc n), ?_⟩
  unfold toText
  rw [hn, serializeNode_scalar hn]
  rfl

lemma not_inside_scalar (hn : isContainer (doc n) = false) : ¬ Inside doc n m := by
  intro h
  exact Bool.false_ne_true (hn.symm.trans h.1)

lemma below_of_scalars (scalars : ∀ c, Inside doc n c → isContainer (doc c) = false) {depth : Nat}
    (h : Below doc n depth m) : depth = 0 ∧ m = n ∨ Inside doc n m := by
  induction h with
  | root => exact .inl ⟨rfl, rfl⟩
  | inside _ inner ih =>
    right
    rcases ih with ⟨_, rfl⟩ | outer
    · exact inner
    · exact absurd inner (not_inside_scalar (scalars _ outer))

lemma not_hasCycle_of_scalars (scalars : ∀ c, Inside doc n c → isContainer (doc c) = false) :
    ¬ HasCycle doc n := by
  rintro ⟨m, reached, around⟩
  have place : ∀ {c}, Relation.ReflTransGen (Inside doc) n c → c = n ∨ Inside doc n c := by
    intro c h
    induction h with
    | refl => exact .inl rfl
    | tail _ inner ih =>
      right
      rcases ih with rfl | outer
      · exact inner
      · exact absurd inner (not_inside_scalar (scalars _ outer))
  obtain ⟨c, first, rest⟩ := Relation.TransGen.head'_iff.mp around
  rcases place reached with rfl | outer
  · -- the way back to the root starts at a scalar
    rcases Relation.ReflTransGen.cases_head rest with rfl | ⟨d, inner, _⟩
    · exact absurd first (not_inside_scalar (scalars _ first))
    · exact absurd inner (not_inside_scalar (scalars _ first))
  · exact absurd first (not_inside_scalar (scalars _ outer))

lemma pathStackSound_of_scalars (scalars : ∀ c, Inside doc n c → isContainer (doc c) = false)
    (ok : ∃ text, toText doc formatG n = .ok text) : PathStackSound doc formatG n := by
  obtain ⟨text, ok⟩ := ok
  refine ⟨fun f h => ?_, ⟨fun h => ?_, fun h => ?_⟩, ⟨fun h => ?_, fun h => ?_⟩⟩
  · rw [ok] at h
    cases h
  · rw [ok] at h
    cases h
  · exact absurd h (not_hasCycle_of_scalars scalars)
  · rw [ok] at h
    cases h
  · obtain ⟨_, depth, m, deep, below, container⟩ := h
    rcases below_of_scalars scalars below with ⟨rfl, _⟩ | inner
    · exact absurd deep (Nat.not_lt_zero _)
    · exact absurd container (by simp [scalars m inner])

lemma pathStackSound_of_self (hn : Inside doc n n)
    (stops : toText doc formatG n = .error (.error .cycle)) : PathStackSound doc formatG n := by
  have cyclic : HasCycle doc n := ⟨n, .refl, .single hn⟩
  refine ⟨fun f h => ?_, ⟨fun _ => cyclic, fun _ => stops⟩, ⟨fun h => ?_, fun h => ?_⟩⟩
  · rw [stops] at h
    cases h
  · rw [stops] at h
    cases h
  · exact absurd cyclic h.1

/-- **The path stack.** For every document and every node, the serializer stays within the written
cells of its path array and reports cycles and depth as it should if and only if the first container
right inside the node, if there is one, is the node itself. -/
theorem pathStackSound_iff_flat (doc : Document δ) (formatG : δ → Text) (n : NodeId) :
    PathStackSound doc formatG n ↔ Flat doc n := by
  cases hn : isContainer (doc n) with
  | false =>
    refine ⟨fun _ h => absurd h (by simp [hn]), fun _ => ?_⟩
    exact pathStackSound_of_scalars (fun c h => absurd h (not_inside_scalar hn)) (toText_scalar hn)
  | true =>
    have ends := toText_container formatG hn
    cases hf : (children doc n).find? (fun c => isContainer (doc c)) with
    | none =>
      rw [hf] at ends
      refine ⟨fun _ _ c hc => absurd (hf.symm.trans hc) (by simp), fun _ => ?_⟩
      refine pathStackSound_of_scalars (fun c h => ?_) ends
      simpa using List.find?_eq_none.mp hf c h.2
    | some c =>
      rw [hf] at ends
      by_cases same : n = c
      · subst same
        refine ⟨fun _ _ d hd => (Option.some.inj (hf.symm.trans hd)).symm, fun _ => ?_⟩
        refine pathStackSound_of_self ⟨hn, List.mem_of_find?_eq_some hf⟩ ?_
        simpa [stopAt] using ends
      · refine ⟨fun h => absurd ends ?_, fun flat => absurd (flat hn c hf).symm same⟩
        simpa [stopAt, same] using h.sound (.readUnwritten 1)

def nestedMap : Document Int
  | 0 => { (Node.empty .map : Node Int) with entries := [(['a'], 1)] }
  | 1 => { (Node.empty .map : Node Int) with entries := [(['b'], 2)] }
  | _ => { (Node.empty .int : Node Int) with i := 1 }

/-- Writing a map in a map reads a cell that was not written. -/
theorem not_pathStackSound_nestedMap :
    ¬ PathStackSound nestedMap (fun d => (toString d).toList) 0 := by
  intro h
  exact h.sound (.readUnwritten 1) rfl

end PulseEngine.Datalist
