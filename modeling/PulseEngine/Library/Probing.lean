import Mathlib.Data.List.AList
import Mathlib.Tactic

/-!
# Open addressing with tombstones

A table is a ring of cells. A value is stored on the walk that starts at the hash of its key, and
the walk to it must not meet an empty cell, because a search stops there. A cell that is given up
becomes a tombstone, so that the walks over it stay whole. `walk` is the loop of every such search,
and `Represents` says which finite map the cells stand for.
-/

namespace PulseEngine.Library

inductive Cell (V : Type*) where
  | empty
  | tombstone
  | full (value : V)
  deriving DecidableEq, Repr

namespace Cell

variable {V : Type*}

def isFull : Cell V → Bool
  | .full _ => true
  | _ => false

def isEmpty : Cell V → Bool
  | .empty => true
  | _ => false

@[simp] lemma isFull_empty : (empty : Cell V).isFull = false := rfl
@[simp] lemma isFull_tombstone : (tombstone : Cell V).isFull = false := rfl
@[simp] lemma isFull_full (v : V) : (full v).isFull = true := rfl
@[simp] lemma isEmpty_empty : (empty : Cell V).isEmpty = true := rfl
@[simp] lemma isEmpty_tombstone : (tombstone : Cell V).isEmpty = false := rfl
@[simp] lemma isEmpty_full (v : V) : (full v).isEmpty = false := rfl

end Cell

section Walk

variable {σ β : Type*}

/-- A loop over places: a visit goes on with a new state, or stops with a result. Nothing when the
fuel is used up. -/
def walk (next : ℕ → ℕ) (visit : ℕ → σ → σ ⊕ β) : ℕ → ℕ → σ → Option β
  | 0, _, _ => none
  | fuel + 1, t, s =>
    match visit t s with
    | .inr b => some b
    | .inl s' => walk next visit fuel (next t) s'

variable {next : ℕ → ℕ} {visit : ℕ → σ → σ ⊕ β} {fuel start : ℕ} {s : σ} {b : β}

/-- **Rule for walks.** What holds of the state before every visit gives what holds of the result,
which some visit of the walk found. -/
theorem walk_spec {I : ℕ → σ → Prop} (keep : ∀ n s s', I n s →
      visit (next^[n] start) s = .inl s' → I (n + 1) s')
    (init : I 0 s) (found : walk next visit fuel start s = some b) :
    ∃ n s', n < fuel ∧ I n s' ∧ visit (next^[n] start) s' = .inr b := by
  induction fuel generalizing start s I with
  | zero => cases found
  | succ fuel ih =>
    rw [walk] at found
    cases here : visit start s with
    | inr b' =>
      rw [here] at found
      cases found
      exact ⟨0, s, Nat.succ_pos _, init, here⟩
    | inl s₁ =>
      rw [here] at found
      have keep' : ∀ n s s', I (n + 1) s → visit (next^[n] (next start)) s = .inl s' →
          I (n + 2) s' := by
        intro n s s' inv went
        rw [← Function.iterate_succ_apply] at went
        exact keep (n + 1) s s' inv went
      obtain ⟨n, s', lt, inv, stop⟩ := ih keep' (keep 0 s s₁ init here) found
      rw [← Function.iterate_succ_apply] at stop
      exact ⟨n + 1, s', Nat.succ_lt_succ lt, inv, stop⟩

/-- A walk stops that comes to a place where every visit stops. -/
theorem walk_isSome {n : ℕ} (lt : n < fuel) (stop : ∀ s, (visit (next^[n] start) s).isRight) :
    ∃ b, walk next visit fuel start s = some b := by
  induction n generalizing fuel start s with
  | zero =>
    obtain ⟨fuel, rfl⟩ := Nat.exists_eq_add_of_le' lt
    obtain ⟨b, here⟩ := Sum.isRight_iff.mp (stop s)
    exact ⟨b, by rw [walk, show visit start s = .inr b from here]⟩
  | succ n ih =>
    obtain ⟨fuel, rfl⟩ := Nat.exists_eq_add_of_le' (Nat.zero_lt_of_lt lt)
    rw [walk]
    cases visit start s with
    | inr b => exact ⟨b, rfl⟩
    | inl s' =>
      have lt' : n < fuel := Nat.lt_of_succ_lt_succ lt
      exact ih lt' fun s => by
        rw [← Function.iterate_succ_apply]
        exact stop s

/-- A walk on which no visit stops never ends. -/
theorem walk_eq_none (go : ∀ n s, (visit (next^[n] start) s).isLeft) :
    walk next visit fuel start s = none := by
  induction fuel generalizing start s with
  | zero => rfl
  | succ fuel ih =>
    obtain ⟨s', here⟩ := Sum.isLeft_iff.mp (go 0 s)
    rw [walk, show visit start s = .inl s' from here]
    exact ih fun n s => by
      rw [← Function.iterate_succ_apply]
      exact go (n + 1) s

end Walk

section Ring

variable {size start t n : ℕ} {next : ℕ → ℕ}

lemma ring_iterate (ring : ∀ t, next t = (t + 1) % size) (n start : ℕ) :
    next^[n] (start % size) = (start + n) % size := by
  induction n with
  | zero => rfl
  | succ n ih => rw [Function.iterate_succ_apply', ih, ring, Nat.mod_add_mod, Nat.add_assoc]

lemma exists_steps (start : ℕ) (lt : t < size) : ∃ n < size, (start + n) % size = t := by
  have base : start % size < size := Nat.mod_lt _ (Nat.zero_lt_of_lt lt)
  refine ⟨(t + (size - start % size)) % size, Nat.mod_lt _ (Nat.zero_lt_of_lt lt), ?_⟩
  rw [Nat.add_mod_mod, ← Nat.mod_add_mod,
    show start % size + (t + (size - start % size)) = t + size by omega, Nat.add_mod_right,
    Nat.mod_eq_of_lt lt]

end Ring

section Linked

variable {V : Type*} {cells : List (Cell V)} {start t n : ℕ} {c : Cell V}

/-- The walk from `start` meets no empty cell in its first `n` steps. -/
def Unbroken (cells : List (Cell V)) (start n : ℕ) : Prop :=
  ∀ m < n, cells[(start + m) % cells.length]? ≠ some .empty

/-- The walk from `start` comes to the cell before it meets an empty one. -/
def Linked (cells : List (Cell V)) (start t : ℕ) : Prop :=
  ∃ n < cells.length, (start + n) % cells.length = t ∧ Unbroken cells start n

lemma Unbroken.zero : Unbroken cells start 0 := fun _ lt => absurd lt (Nat.not_lt_zero _)

lemma Unbroken.succ (h : Unbroken cells start n)
    (here : cells[(start + n) % cells.length]? ≠ some .empty) :
    Unbroken cells start (n + 1) := by
  intro m lt
  rcases Nat.lt_succ_iff_lt_or_eq.mp lt with lt | rfl
  · exact h m lt
  · exact here

lemma Unbroken.set (h : Unbroken cells start n) (used : c ≠ .empty) :
    Unbroken (cells.set t c) start n := by
  intro m lt
  rw [List.length_set]
  have was := h m lt
  by_cases eq : t = (start + m) % cells.length
  · rw [eq, List.getElem?_set_self']
    cases cells[(start + m) % cells.length]? with
    | none => exact nofun
    | some _ => simpa using used
  · rw [List.getElem?_set_ne eq]
    exact was

lemma Linked.set {t' : ℕ} (h : Linked cells start t) (used : c ≠ .empty) :
    Linked (cells.set t' c) start t := by
  obtain ⟨n, lt, at_t, unbroken⟩ := h
  refine ⟨n, by rwa [List.length_set], by rwa [List.length_set], unbroken.set used⟩

end Linked

section Represents

variable {K V : Type*} [DecidableEq K] {hash : K → ℕ} {keyOf keyOf' : V → Option K}
  {cells : List (Cell V)} {map map' : AList fun _ : K => V} {t n start : ℕ} {k : K} {v : V}

/-- The cells stand for the map: a full cell holds the value of its key and is linked to the hash of
it, every value of the map has a cell, and no other cell holds it. -/
structure Represents (hash : K → ℕ) (keyOf : V → Option K) (cells : List (Cell V))
    (map : AList fun _ : K => V) : Prop where
  stored : ∀ {t : ℕ} {v : V}, cells[t]? = some (.full v) →
    ∃ k, keyOf v = some k ∧ map.lookup k = some v ∧ Linked cells (hash k) t
  held : ∀ {k : K} {v : V}, map.lookup k = some v →
    keyOf v = some k ∧ ∃ t : ℕ, cells[t]? = some (.full v)
  once : ∀ {t t' : ℕ} {v : V}, cells[t]? = some (.full v) → cells[t']? = some (.full v) → t = t'

lemma Represents.frame (h : Represents hash keyOf cells map)
    (same : ∀ k v, map.lookup k = some v → keyOf' v = keyOf v) :
    Represents hash keyOf' cells map := by
  refine ⟨fun here => ?_, fun found => ?_, h.once⟩
  · obtain ⟨k, key, found, linked⟩ := h.stored here
    exact ⟨k, by rw [same k _ found, key], found, linked⟩
  · obtain ⟨key, cell⟩ := h.held found
    exact ⟨by rw [same _ _ found, key], cell⟩

lemma Represents.congr (h : Represents hash keyOf cells map)
    (same : ∀ k, map'.lookup k = map.lookup k) : Represents hash keyOf cells map' := by
  refine ⟨fun here => ?_, fun found => ?_, h.once⟩
  · obtain ⟨k, key, found, linked⟩ := h.stored here
    exact ⟨k, key, by rw [same, found], linked⟩
  · rw [same] at found
    exact h.held found

lemma Represents.clear (size : ℕ) : Represents hash keyOf (List.replicate size .empty) ∅ := by
  have none_full : ∀ {t : ℕ} {v : V},
      (List.replicate size (Cell.empty : Cell V))[t]? ≠ some (.full v) := by
    intro t v here
    cases List.eq_of_mem_replicate (List.mem_of_getElem? here)
  refine ⟨fun here => absurd here none_full, fun found => ?_, fun here => absurd here none_full⟩
  rw [AList.lookup_empty] at found
  cases found

lemma Represents.on_walk (h : Represents hash keyOf cells map) (found : map.lookup k = some v) :
    ∃ n < cells.length, cells[(hash k + n) % cells.length]? = some (.full v) ∧
      Unbroken cells (hash k) n := by
  obtain ⟨key, t, here⟩ := h.held found
  obtain ⟨k', key', -, n, lt, rfl, unbroken⟩ := h.stored here
  rw [key] at key'
  cases key'
  exact ⟨n, lt, here, unbroken⟩

lemma Represents.not_found (h : Represents hash keyOf cells map)
    (before : ∀ m < n, cells[(hash k + m) % cells.length]? ≠ some (.full v))
    (here : cells[(hash k + n) % cells.length]? = some .empty) : map.lookup k ≠ some v := by
  intro found
  obtain ⟨m, -, at_m, unbroken⟩ := h.on_walk found
  rcases Nat.lt_trichotomy m n with lt | rfl | gt
  · exact before m lt at_m
  · rw [here] at at_m
    cases at_m
  · exact unbroken n gt here

/-- A value goes into a cell on the walk of its key. -/
theorem Represents.insert (h : Represents hash keyOf cells map) (key : keyOf v = some k)
    (new : map.lookup k = none) (linked : Linked cells (hash k) t)
    (free : ∀ v', cells[t]? ≠ some (.full v')) :
    Represents hash keyOf (cells.set t (.full v)) (map.insert k v) := by
  have lt : t < cells.length := by
    obtain ⟨n, lt, rfl, -⟩ := linked
    exact Nat.mod_lt _ (Nat.zero_lt_of_lt lt)
  have others : ∀ {t' v'}, (cells.set t (.full v))[t']? = some (.full v') →
      t' = t ∧ v' = v ∨ t' ≠ t ∧ cells[t']? = some (.full v') := by
    intro t' v' here
    by_cases eq : t' = t
    · subst eq
      rw [List.getElem?_set_self lt] at here
      cases here
      exact .inl ⟨rfl, rfl⟩
    · rw [List.getElem?_set_ne fun e => eq e.symm] at here
      exact .inr ⟨eq, here⟩
  have absent : ∀ {t' : ℕ}, cells[t']? ≠ some (.full v) := by
    intro t' here
    obtain ⟨k', key', found, -⟩ := h.stored here
    rw [key] at key'
    cases key'
    rw [new] at found
    cases found
  refine ⟨fun here => ?_, fun {k' v'} found => ?_, fun here here' => ?_⟩
  · rcases others here with ⟨rfl, rfl⟩ | ⟨-, was⟩
    · exact ⟨k, key, AList.lookup_insert _, linked.set nofun⟩
    · obtain ⟨k', key', found, linked'⟩ := h.stored was
      have ne : k' ≠ k := by
        rintro rfl
        rw [new] at found
        cases found
      exact ⟨k', key', by rw [AList.lookup_insert_ne ne, found], linked'.set nofun⟩
  · by_cases eq : k' = k
    · subst eq
      rw [AList.lookup_insert] at found
      cases found
      exact ⟨key, t, List.getElem?_set_self lt⟩
    · rw [AList.lookup_insert_ne eq] at found
      obtain ⟨key', t', here⟩ := h.held found
      have ne : t ≠ t' := by
        rintro rfl
        exact free v' here
      exact ⟨key', t', by rw [List.getElem?_set_ne ne, here]⟩
  · rcases others here with ⟨rfl, rfl⟩ | ⟨-, was⟩
    · rcases others here' with ⟨rfl, -⟩ | ⟨-, was'⟩
      · rfl
      · exact absurd was' absent
    · rcases others here' with ⟨-, rfl⟩ | ⟨-, was'⟩
      · exact absurd was absent
      · exact h.once was was'

/-- A tombstone goes into the cell of a key. -/
theorem Represents.erase (h : Represents hash keyOf cells map)
    (here : cells[t]? = some (.full v)) (key : keyOf v = some k) :
    Represents hash keyOf (cells.set t .tombstone) (map.erase k) := by
  have lt : t < cells.length := (List.getElem?_eq_some_iff.mp here).1
  have others : ∀ {t' v'}, (cells.set t .tombstone)[t']? = some (.full v') →
      t' ≠ t ∧ cells[t']? = some (.full v') := by
    intro t' v' here'
    have ne : t' ≠ t := by
      rintro rfl
      rw [List.getElem?_set_self lt] at here'
      cases here'
    rw [List.getElem?_set_ne ne.symm] at here'
    exact ⟨ne, here'⟩
  refine ⟨fun here' => ?_, fun {k' v'} found => ?_, fun here₁ here₂ => ?_⟩
  · obtain ⟨ne, was⟩ := others here'
    obtain ⟨k', key', found, linked⟩ := h.stored was
    have other : k' ≠ k := by
      rintro rfl
      obtain ⟨k', key'', found', -⟩ := h.stored here
      rw [key] at key''
      cases key''
      rw [found] at found'
      cases found'
      exact ne (h.once was here)
    exact ⟨k', key', by rw [AList.lookup_erase_ne other, found], linked.set nofun⟩
  · have other : k' ≠ k := by
      rintro rfl
      rw [AList.lookup_erase] at found
      cases found
    rw [AList.lookup_erase_ne other] at found
    obtain ⟨key', t', here'⟩ := h.held found
    have ne : t ≠ t' := by
      rintro rfl
      rw [here] at here'
      cases here'
      rw [key] at key'
      cases key'
      exact other rfl
    exact ⟨key', t', by rw [List.getElem?_set_ne ne, here']⟩
  · exact h.once (others here₁).2 (others here₂).2

end Represents

section Counts

variable {V : Type*} {cells : List (Cell V)} {t : ℕ} {v : V}

def countFull (cells : List (Cell V)) : ℕ := cells.countP Cell.isFull

def countUsed (cells : List (Cell V)) : ℕ := cells.countP fun c => !c.isEmpty

def countTombstones (cells : List (Cell V)) : ℕ := cells.countP fun c => !c.isEmpty && !c.isFull

lemma countFull_clear (size : ℕ) : countFull (List.replicate size (.empty : Cell V)) = 0 := by
  simp [countFull, List.countP_replicate]

lemma countUsed_clear (size : ℕ) : countUsed (List.replicate size (.empty : Cell V)) = 0 := by
  simp [countUsed, List.countP_replicate]

lemma countUsed_eq (cells : List (Cell V)) :
    countUsed cells = countFull cells + countTombstones cells := by
  induction cells with
  | nil => rfl
  | cons c cells ih =>
    simp only [countUsed, countFull, countTombstones, List.countP_cons] at ih ⊢
    cases c <;> simp <;> omega

lemma exists_empty (h : countUsed cells < cells.length) : ∃ t < cells.length,
    cells[t]? = some .empty := by
  by_contra all
  have : countUsed cells = cells.length := List.countP_eq_length.mpr fun c mem => by
    obtain ⟨t, here⟩ := List.mem_iff_getElem?.mp mem
    cases c with
    | empty => exact absurd ⟨t, (List.getElem?_eq_some_iff.mp here).1, here⟩ all
    | tombstone => rfl
    | full v => rfl
  omega

lemma ne_empty (h : countUsed cells = cells.length) (t : ℕ) : cells[t]? ≠ some .empty := by
  intro here
  have := List.countP_eq_length.mp h _ (List.mem_of_getElem? here)
  cases this

lemma countFull_le_used (cells : List (Cell V)) : countFull cells ≤ countUsed cells := by
  rw [countUsed_eq]
  exact Nat.le_add_right _ _

lemma countUsed_le (cells : List (Cell V)) : countUsed cells ≤ cells.length :=
  List.countP_le_length

lemma countFull_fill (lt : t < cells.length) (free : ∀ v', cells[t]? ≠ some (.full v')) :
    countFull (cells.set t (.full v)) = countFull cells + 1 := by
  rw [countFull, List.countP_set lt]
  have was : cells[t].isFull = false := by
    cases here : cells[t] with
    | full v' => exact absurd (by rw [List.getElem?_eq_getElem lt, here]) (free v')
    | _ => rfl
  rw [was]
  simp [countFull]

lemma countUsed_fill_empty (here : cells[t]? = some .empty) :
    countUsed (cells.set t (.full v)) = countUsed cells + 1 := by
  obtain ⟨lt, here⟩ := List.getElem?_eq_some_iff.mp here
  rw [countUsed, List.countP_set lt, here]
  simp [countUsed]

lemma countUsed_fill_tombstone (here : cells[t]? = some .tombstone) :
    countUsed (cells.set t (.full v)) = countUsed cells := by
  obtain ⟨lt, here⟩ := List.getElem?_eq_some_iff.mp here
  have pos : 0 < countUsed cells :=
    List.countP_pos_iff.mpr ⟨.tombstone, here ▸ List.getElem_mem lt, rfl⟩
  rw [countUsed] at pos
  rw [countUsed, List.countP_set lt, here]
  simp only [Cell.isEmpty_tombstone, Bool.not_false, if_true, Cell.isEmpty_full, countUsed]
  omega

lemma countFull_bury (here : cells[t]? = some (.full v)) :
    countFull (cells.set t .tombstone) + 1 = countFull cells := by
  obtain ⟨lt, here⟩ := List.getElem?_eq_some_iff.mp here
  have pos : 0 < countFull cells :=
    List.countP_pos_iff.mpr ⟨.full v, here ▸ List.getElem_mem lt, rfl⟩
  rw [countFull] at pos
  rw [countFull, List.countP_set lt, here]
  simp only [Cell.isFull_full, if_true, Cell.isFull_tombstone, countFull]
  simp
  omega

lemma countUsed_bury (here : cells[t]? = some (.full v)) :
    countUsed (cells.set t .tombstone) = countUsed cells := by
  obtain ⟨lt, here⟩ := List.getElem?_eq_some_iff.mp here
  have pos : 0 < countUsed cells :=
    List.countP_pos_iff.mpr ⟨.full v, here ▸ List.getElem_mem lt, rfl⟩
  rw [countUsed] at pos
  rw [countUsed, List.countP_set lt, here]
  simp only [Cell.isEmpty_tombstone, Bool.not_false, if_true, Cell.isEmpty_full, countUsed]
  omega

end Counts

end PulseEngine.Library
