import PulseEngine.Font.GlyphTable

/-!
# Insertion and rehashing

`table_rehash` moves the entries in use to new cells, and `table_insert` calls it when the cells run
short. The comparison in `table_reserve` wraps on its left side only, so it keeps the load factor of
every table below `2 ^ 31` cells, and never lets a table grow beyond that.
-/

namespace PulseEngine.Font

open Asset Library

variable {entries : List GlyphEntry} {table table' : GlyphTable} {map map' : GlyphMap}
  {key : GlyphKey} {i : ℕ}

lemma insert_keys_length (new : map.lookup key = none) :
    (map.insert key i).keys.length = map.keys.length + 1 := by
  have absent : key ∉ map.keys := fun mem => by
    rw [← AList.mem_keys] at mem
    exact AList.lookup_eq_none.mp new mem
  rw [AList.keys_insert, List.erase_of_not_mem absent, List.length_cons]

section Rehash

/-- `table_rehash` has come to the entry `i`: the new cells hold the entries before it. -/
structure Rehashed (entries : List GlyphEntry) (size i : ℕ) (next : List (Cell ℕ)) (used : ℕ)
    (map : GlyphMap) : Prop where
  represents : Represents slotHash (keyOf entries) next map
  /-- It is the map of the entries before `i`. -/
  looked : ∀ k v, map.lookup k = some v ↔ keyOf entries v = some k ∧ v < i
  size : next.length = size
  full : countFull next = used
  inUse : countUsed next = used
  count : map.keys.length = used

variable {size n used slot : ℕ} {next : List (Cell ℕ)} {entry : GlyphEntry}

lemma Rehashed.start : Rehashed entries size 0 (List.replicate size .empty) 0 ∅ := by
  refine ⟨Represents.clear size, fun k v => ?_, List.length_replicate, countFull_clear size,
    countUsed_clear size, rfl⟩
  rw [AList.lookup_empty]
  exact ⟨nofun, fun h => absurd h.2 (Nat.not_lt_zero v)⟩

lemma Rehashed.skip (done : Rehashed entries size i next used map) (dead : keyOf entries i = none) :
    Rehashed entries size (i + 1) next used map := by
  refine { done with looked := fun k v => (done.looked k v).trans ?_ }
  refine and_congr_right fun is_key => ⟨fun lt => Nat.lt_succ_of_lt lt, fun lt => ?_⟩
  rcases Nat.lt_succ_iff_lt_or_eq.mp lt with lt | rfl
  · exact lt
  · rw [dead] at is_key
    cases is_key

lemma walk_visitFree (pow : next.length = 1024 * 2 ^ n)
    (found : walk (nextSlot next.length) (visitFree next) next.length
      (firstSlot next.length key) () = some slot) :
    next[slot]? = some .empty ∧ Linked next (slotHash key) slot := by
  have pos := size_pos pow
  have keep : ∀ m u u', Unbroken next (slotHash key) m →
      visitFree next ((nextSlot next.length)^[m] (firstSlot next.length key)) u = .inl u' →
      Unbroken next (slotHash key) (m + 1) := by
    intro m u u' unbroken went
    refine unbroken.succ fun here => ?_
    rw [slot_after pow, visitFree, getD_of_some here] at went
    cases went
  obtain ⟨m, _, lt, unbroken, stopped⟩ := walk_spec keep Unbroken.zero found
  rw [slot_after pow, visitFree] at stopped
  have here := List.getElem?_eq_getElem (Nat.mod_lt (slotHash key + m) pos)
  rw [getD_of_some here] at stopped
  split at stopped
  next content =>
    cases stopped
    rw [content] at here
    exact ⟨here, m, lt, rfl, unbroken⟩
  next => cases stopped

lemma Rehashed.step
    (injective : ∀ i j k, keyOf entries i = some k → keyOf entries j = some k → i = j)
    (pow : size = 1024 * 2 ^ n) (done : Rehashed entries size i next used map)
    (live : keyOf entries i = some key)
    (found : walk (nextSlot size) (visitFree next) size (firstSlot size key) () = some slot) :
    Rehashed entries size (i + 1) (next.set slot (.full i)) (used + 1) (map.insert key i) := by
  have length := done.size
  subst length
  obtain ⟨here, linked⟩ := walk_visitFree pow found
  have lt : slot < next.length := (List.getElem?_eq_some_iff.mp here).1
  have not_full : ∀ v, next[slot]? ≠ some (.full v) := by
    intro v full
    rw [here] at full
    cases full
  have new : map.lookup key = none := by
    cases looked : map.lookup key with
    | none => rfl
    | some v =>
      obtain ⟨is_key, lt⟩ := (done.looked key v).mp looked
      exact absurd (injective v i key is_key live) (Nat.ne_of_lt lt)
  refine ⟨done.represents.insert live new linked not_full, fun k v => ?_, List.length_set, ?_, ?_,
    ?_⟩
  · by_cases eq : k = key
    · subst eq
      rw [AList.lookup_insert]
      refine ⟨fun e => ?_, fun h => congrArg some (injective i v k live h.1)⟩
      cases e
      exact ⟨live, Nat.lt_succ_self i⟩
    · rw [AList.lookup_insert_ne eq, done.looked]
      refine and_congr_right fun is_key => ⟨fun lt => Nat.lt_succ_of_lt lt, fun lt => ?_⟩
      rcases Nat.lt_succ_iff_lt_or_eq.mp lt with lt | rfl
      · exact lt
      · rw [live] at is_key
        exact absurd (Option.some.inj is_key).symm eq
  · rw [countFull_fill lt not_full, done.full]
  · rw [countUsed_fill_empty here, done.inUse]
  · rw [insert_keys_length new, done.count]

lemma walk_visitFree_isSome (key : GlyphKey) (pow : next.length = 1024 * 2 ^ n)
    (room : countUsed next < next.length) :
    ∃ slot, walk (nextSlot next.length) (visitFree next) next.length
      (firstSlot next.length key) () = some slot := by
  obtain ⟨slot, lt, here⟩ := exists_empty room
  obtain ⟨m, lt', at_slot⟩ := exists_steps (slotHash key) lt
  refine walk_isSome lt' fun _ => ?_
  rw [slot_after pow, at_slot, visitFree, getD_of_some here]
  rfl

lemma keyOf_drop {rest : List GlyphEntry} (here : entries.drop i = entry :: rest) :
    keyOf entries i = (if entry.occupied then some entry.key else none) ∧
      entries.drop (i + 1) = rest := by
  have at_i : entries[i]? = some entry := by
    rw [← Nat.add_zero i, ← List.getElem?_drop, here]
    rfl
  refine ⟨by rw [keyOf, at_i, Option.bind_some], ?_⟩
  rw [← List.drop_drop, here]
  rfl

lemma rehashFrom_spec
    (injective : ∀ i j k, keyOf entries i = some k → keyOf entries j = some k → i = j)
    (pow : size = 1024 * 2 ^ n) {rest : List GlyphEntry} (drop : entries.drop i = rest)
    (done : Rehashed entries size i next used map)
    (ended : rehashFrom size rest i next used = some table') :
    ∃ map', Rehashed entries size (i + rest.length) table'.cells table'.used map' ∧
      table'.occupied = table'.used ∧
      table'.used = used + rest.countP fun entry => entry.occupied := by
  induction rest generalizing i next used map with
  | nil =>
    cases ended
    exact ⟨map, done, rfl, rfl⟩
  | cons entry rest ih =>
    obtain ⟨at_i, drop'⟩ := keyOf_drop drop
    rw [rehashFrom] at ended
    cases live : entry.occupied with
    | false =>
      rw [live, if_neg Bool.false_ne_true] at ended at_i
      obtain ⟨map', done', occupied, used'⟩ := ih drop' (done.skip at_i) ended
      refine ⟨map', ?_, occupied, by simpa [live] using used'⟩
      rwa [List.length_cons, Nat.add_comm rest.length, ← Nat.add_assoc]
    | true =>
      rw [live, if_pos rfl] at ended at_i
      obtain ⟨slot, found, rest_ended⟩ := Option.bind_eq_some_iff.mp ended
      obtain ⟨map', done', occupied, used'⟩ :=
        ih drop' (done.step injective pow at_i found) rest_ended
      refine ⟨map', ?_, occupied, by simp [live]; omega⟩
      rwa [List.length_cons, Nat.add_comm rest.length, ← Nat.add_assoc]

lemma rehashFrom_isSome
    (injective : ∀ i j k, keyOf entries i = some k → keyOf entries j = some k → i = j)
    (pow : size = 1024 * 2 ^ n) {rest : List GlyphEntry} (drop : entries.drop i = rest)
    (done : Rehashed entries size i next used map)
    (room : used + rest.countP (fun entry => entry.occupied) ≤ size) :
    ∃ table', rehashFrom size rest i next used = some table' := by
  induction rest generalizing i next used map with
  | nil => exact ⟨_, rfl⟩
  | cons entry rest ih =>
    obtain ⟨at_i, drop'⟩ := keyOf_drop drop
    rw [rehashFrom]
    cases live : entry.occupied with
    | false =>
      rw [live, if_neg Bool.false_ne_true] at at_i
      rw [if_neg Bool.false_ne_true]
      exact ih drop' (done.skip at_i) (by simpa [live] using room)
    | true =>
      rw [live, if_pos rfl] at at_i
      rw [if_pos rfl]
      simp only [List.countP_cons, live, if_true] at room
      have length := done.size
      have room' : countUsed next < next.length := by
        rw [done.inUse, length]
        omega
      obtain ⟨slot, found⟩ := walk_visitFree_isSome entry.key (length.trans pow) room'
      rw [length] at found
      obtain ⟨table', ended⟩ :=
        ih drop' (done.step injective pow at_i found) (by omega)
      exact ⟨table', by rw [found]; exact ended⟩

lemma keys_length_congr (same : ∀ k, map.lookup k = map'.lookup k) :
    map.keys.length = map'.keys.length := by
  refine List.Perm.length_eq ((List.perm_ext_iff_of_nodup map.keys_nodup map'.keys_nodup).mpr ?_)
  intro k
  rw [← AList.mem_keys, ← AList.mem_keys, ← AList.lookup_isSome, ← AList.lookup_isSome, same]

def Covers (entries : List GlyphEntry) (map : GlyphMap) : Prop :=
  Inverse (keyOf entries) fun k => map.lookup k

lemma Covers.injective (covers : Covers entries map) (i j : ℕ) (k : GlyphKey)
    (hi : keyOf entries i = some k) (hj : keyOf entries j = some k) : i = j :=
  Inverse.injective covers hi hj

lemma keyOf_lt (live : keyOf entries i = some key) : i < entries.length := by
  obtain ⟨entry, here, -⟩ := keyOf_eq_some.mp live
  exact (List.getElem?_eq_some_iff.mp here).1

lemma tableRehash_spec (covers : Covers entries map) (pow : size = 1024 * 2 ^ n)
    (ended : tableRehash entries size = some table') :
    Represents slotHash (keyOf entries) table'.cells map ∧ table'.cells.length = size ∧
      table'.used = countFull table'.cells ∧ table'.occupied = countUsed table'.cells ∧
      table'.occupied = table'.used ∧ map.keys.length = table'.used ∧
      table'.used = entries.countP fun entry => entry.occupied := by
  obtain ⟨map', done, occupied, used⟩ :=
    rehashFrom_spec covers.injective pow List.drop_zero Rehashed.start ended
  have same : ∀ k, map.lookup k = map'.lookup k := by
    intro k
    refine Option.ext fun v => ?_
    rw [done.looked, ← covers v k, Nat.zero_add]
    exact ⟨fun live => ⟨live, keyOf_lt live⟩, And.left⟩
  refine ⟨done.represents.congr same, done.size, done.full.symm, ?_, occupied, ?_, ?_⟩
  · rw [occupied, done.inUse]
  · rw [keys_length_congr same, done.count]
  · rw [used, Nat.zero_add]

lemma tableRehash_isSome (covers : Covers entries map) (pow : size = 1024 * 2 ^ n)
    (room : entries.countP (fun entry => entry.occupied) ≤ size) :
    ∃ table', tableRehash entries size = some table' :=
  rehashFrom_isSome covers.injective pow List.drop_zero Rehashed.start (by rwa [Nat.zero_add])

lemma Covers.count (covers : Covers entries map) :
    map.keys.length = entries.countP fun entry => entry.occupied := by
  have room : entries.countP (fun entry => entry.occupied) ≤ 1024 * 2 ^ entries.length := by
    have le : entries.countP (fun entry => entry.occupied) ≤ entries.length := List.countP_le_length
    have lt : entries.length < 2 ^ entries.length := Nat.lt_two_pow_self
    omega
  obtain ⟨table', ended⟩ := tableRehash_isSome covers rfl room
  obtain ⟨-, -, -, -, -, keys, used⟩ := tableRehash_spec covers rfl ended
  rw [keys, used]

end Rehash

section Insert

variable {n slot : ℕ}

structure Inserting (entries : List GlyphEntry) (map : GlyphMap) (i : ℕ) (key : GlyphKey) :
    Prop where
  live : keyOf entries i = some key
  new : map.lookup key = none
  covers : Covers entries (map.insert key i)

lemma Inserting.count (ins : Inserting entries map i key) :
    (map.insert key i).keys.length = map.keys.length + 1 :=
  insert_keys_length ins.new

/-- What `table_reserve` does to the size: it keeps it, makes the first cells, or doubles it when
three quarters of the cells have an entry. -/
def Grown (table table' : GlyphTable) : Prop :=
  table'.cells.length = table.cells.length ∨ table'.cells.length = 1024 ∨
    table'.cells.length = table.cells.length * 2 ∧ table.cells.length * 3 ≤ table.used * 4

lemma TableOk.rehash (ok : TableOk entries table map) (ins : Inserting entries map i key)
    {m : ℕ} (le : m ≤ 21) (load : (table.used + 1) * 4 ≤ 1024 * 2 ^ m * 3)
    (ended : tableRehash entries (1024 * 2 ^ m) = some table') :
    TableOk entries table' (map.insert key i) ∧ table'.cells.length = 1024 * 2 ^ m ∧
      countUsed table'.cells < table'.cells.length ∧ table'.occupied = table'.used := by
  obtain ⟨represents, size, used, occupied, clean, count, -⟩ :=
    tableRehash_spec ins.covers rfl ended
  have more := ins.count
  have was := ok.count
  have pos : 0 < 1024 * 2 ^ m := size_pos (n := m) rfl
  refine ⟨⟨represents, .inr ⟨m, le, size⟩, used, occupied, count, .inl ?_⟩, size, ?_, clean⟩ <;>
    rw [size]
  · omega
  · omega

lemma reserve_size (ok : TableOk entries table map) (pow : table.cells.length = 1024 * 2 ^ n)
    (le : n ≤ 21) (full : ¬ u32 ((table.occupied + 1) * 4) < table.cells.length * 3) :
    ∃ m ≤ 21, (u32 (if u32 (table.used * 4) ≥ table.cells.length * 3
          then table.cells.length * 2 else table.cells.length)) = 1024 * 2 ^ m ∧
      (table.used + 1) * 4 ≤ 1024 * 2 ^ m * 3 ∧
      (1024 * 2 ^ m = table.cells.length ∨
        1024 * 2 ^ m = table.cells.length * 2 ∧ table.cells.length * 3 ≤ table.used * 4) := by
  have used_le := ok.used_le
  -- at `2 ^ 31` cells a `uint32_t` is always less than three times the size
  have small : n ≤ 20 := by
    by_contra large
    have : n = 21 := by omega
    subst this
    have : u32 ((table.occupied + 1) * 4) < 2 ^ 32 := Nat.mod_lt _ (by norm_num)
    omega
  have bound : 2 ^ n ≤ 2 ^ 20 := Nat.pow_le_pow_right (by norm_num) small
  have pos : 0 < 2 ^ n := Nat.two_pow_pos n
  have load : table.occupied * 4 ≤ table.cells.length * 3 := by
    refine ok.load.resolve_right fun large => ?_
    rw [maxCells] at large
    omega
  have exact_used : u32 (table.used * 4) = table.used * 4 := Nat.mod_eq_of_lt (by omega)
  rw [exact_used]
  split_ifs with grow
  · refine ⟨n + 1, by omega, ?_, ?_, .inr ⟨?_, grow⟩⟩ <;> rw [Nat.pow_succ]
    · rw [u32, Nat.mod_eq_of_lt (by omega)]
      omega
    · omega
    · omega
  · refine ⟨n, le, ?_, by omega, .inl pow.symm⟩
    rw [u32, Nat.mod_eq_of_lt (by omega), pow]

lemma tableReserve_spec (ok : TableOk entries table map) (ins : Inserting entries map i key)
    (ended : tableReserve entries table = some table') :
    Grown table table' ∧ (table' = table ∧ table.cells ≠ [] ∧
        ((table.occupied + 1) * 4 ≤ table.cells.length * 3 ∨ table.cells.length = maxCells) ∨
      TableOk entries table' (map.insert key i) ∧ table'.cells ≠ [] ∧
        countUsed table'.cells < table'.cells.length ∧ table'.occupied = table'.used) := by
  have nonempty : ∀ {m : ℕ}, table'.cells.length = 1024 * 2 ^ m → table'.cells ≠ [] :=
    fun size => List.length_pos_iff.mp (size_pos size)
  rw [tableReserve] at ended
  rcases ok.size with empty | ⟨n, le, pow⟩
  · rw [empty, List.isEmpty_nil, if_pos rfl] at ended
    have none_used : table.used = 0 := by rw [ok.used, empty]; rfl
    obtain ⟨ok', size, room⟩ :=
      ok.rehash ins (m := 0) (by norm_num) (by rw [none_used]; norm_num) ended
    exact ⟨.inr (.inl size), .inr ⟨ok', nonempty size, room⟩⟩
  have some_cells : table.cells ≠ [] := List.length_pos_iff.mp (size_pos pow)
  rw [List.isEmpty_eq_false_iff.mpr some_cells, if_neg Bool.false_ne_true] at ended
  by_cases free : u32 ((table.occupied + 1) * 4) < table.cells.length * 3
  · rw [if_pos free] at ended
    cases ended
    refine ⟨.inl rfl, .inl ⟨rfl, some_cells, ?_⟩⟩
    rcases ok.load with load | large
    · rcases Nat.lt_or_ge n 21 with small | large
      · have bound : 2 ^ n ≤ 2 ^ 20 := Nat.pow_le_pow_right (by norm_num) (by omega)
        rw [u32, Nat.mod_eq_of_lt (by omega)] at free
        exact .inl (Nat.le_of_lt free)
      · have : n = 21 := by omega
        subst this
        exact .inr (pow.trans (by norm_num [maxCells]))
    · exact .inr large
  · rw [if_neg free] at ended
    obtain ⟨m, le', asked, load, grown⟩ := reserve_size ok pow le free
    rw [asked] at ended
    obtain ⟨ok', size, room⟩ := ok.rehash ins le' load ended
    refine ⟨?_, .inr ⟨ok', nonempty size, room⟩⟩
    rcases grown with same | double
    · exact .inl (size.trans same)
    · exact .inr (.inr ⟨size.trans double.1, double.2⟩)

lemma tableReserve_isSome (ok : TableOk entries table map) (ins : Inserting entries map i key) :
    ∃ table', tableReserve entries table = some table' := by
  have count : entries.countP (fun entry => entry.occupied) = table.used + 1 := by
    rw [← ins.covers.count, ins.count, ok.count]
  rw [tableReserve]
  rcases ok.size with empty | ⟨n, le, pow⟩
  · rw [empty, List.isEmpty_nil, if_pos rfl]
    have none_used : table.used = 0 := by rw [ok.used, empty]; rfl
    exact tableRehash_isSome (n := 0) ins.covers (by norm_num) (by rw [count, none_used]; norm_num)
  have some_cells : table.cells ≠ [] := List.length_pos_iff.mp (size_pos pow)
  rw [List.isEmpty_eq_false_iff.mpr some_cells, if_neg Bool.false_ne_true]
  by_cases free : u32 ((table.occupied + 1) * 4) < table.cells.length * 3
  · exact ⟨table, if_pos free⟩
  · rw [if_neg free]
    obtain ⟨m, -, asked, load, -⟩ := reserve_size ok pow le free
    rw [asked]
    exact tableRehash_isSome ins.covers rfl (by rw [count]; omega)

section Visit

variable {cells : List (Cell ℕ)} {tombstone : Option ℕ}

lemma visitInsert_empty (here : cells[slot]? = some .empty) :
    visitInsert cells i slot tombstone = .inr (some (tombstone, slot)) := by
  rw [visitInsert, getD_of_some here]

lemma visitInsert_tombstone (here : cells[slot]? = some .tombstone) :
    visitInsert cells i slot tombstone = .inl (tombstone <|> some slot) := by
  rw [visitInsert, getD_of_some here]

lemma visitInsert_full {j : ℕ} (here : cells[slot]? = some (.full j)) :
    visitInsert cells i slot tombstone = if j = i then .inr none else .inl tombstone := by
  rw [visitInsert, getD_of_some here]

end Visit

lemma walk_visitInsert_absent (pow : table.cells.length = 1024 * 2 ^ n)
    (absent : ∀ slot : ℕ, table.cells[slot]? ≠ some (.full i)) {found : Option (Option ℕ × ℕ)}
    (ended : walk (nextSlot table.cells.length) (visitInsert table.cells i) table.cells.length
      (firstSlot table.cells.length key) none = some found) :
    ∃ tombstone slot, found = some (tombstone, slot) ∧ table.cells[slot]? = some .empty ∧
      Linked table.cells (slotHash key) slot ∧
      ∀ t, tombstone = some t → table.cells[t]? = some .tombstone ∧
        Linked table.cells (slotHash key) t := by
  have pos := size_pos pow
  -- no empty cell was met so far, and the tombstone that is remembered was
  let Met : ℕ → Option ℕ → Prop := fun m tombstone =>
    Unbroken table.cells (slotHash key) m ∧ ∀ t, tombstone = some t →
      table.cells[t]? = some .tombstone ∧
        ∃ m' < m, (slotHash key + m') % table.cells.length = t
  have keep : ∀ m tombstone tombstone', Met m tombstone →
      visitInsert table.cells i ((nextSlot table.cells.length)^[m]
        (firstSlot table.cells.length key)) tombstone = .inl tombstone' →
      Met (m + 1) tombstone' := by
    intro m tombstone tombstone' met went
    rw [slot_after pow] at went
    have in_ring : (slotHash key + m) % table.cells.length < table.cells.length := Nat.mod_lt _ pos
    have here := List.getElem?_eq_getElem in_ring
    have before : ∀ t, tombstone = some t → table.cells[t]? = some .tombstone ∧
        ∃ m' < m + 1, (slotHash key + m') % table.cells.length = t := by
      intro t eq
      obtain ⟨at_t, m', lt, steps⟩ := met.2 t eq
      exact ⟨at_t, m', Nat.lt_succ_of_lt lt, steps⟩
    cases content : table.cells[(slotHash key + m) % table.cells.length] with
    | empty =>
      rw [content] at here
      rw [visitInsert_empty here] at went
      cases went
    | full j =>
      rw [content] at here
      have other : j ≠ i := by
        rintro rfl
        exact absent _ here
      rw [visitInsert_full here, if_neg other] at went
      cases went
      exact ⟨met.1.succ (by rw [here]; exact nofun), before⟩
    | tombstone =>
      rw [content] at here
      rw [visitInsert_tombstone here] at went
      cases went
      refine ⟨met.1.succ (by rw [here]; exact nofun), fun t eq => ?_⟩
      cases first : tombstone with
      | some t' =>
        rw [first] at eq
        exact before t (first.trans eq)
      | none =>
        rw [first] at eq
        cases eq
        exact ⟨here, m, Nat.lt_succ_self m, rfl⟩
  obtain ⟨m, tombstone, lt, ⟨unbroken, met⟩, stopped⟩ :=
    walk_spec (s := none) keep ⟨Unbroken.zero, fun t eq => nomatch eq⟩ ended
  rw [slot_after pow] at stopped
  have in_ring : (slotHash key + m) % table.cells.length < table.cells.length := Nat.mod_lt _ pos
  have here := List.getElem?_eq_getElem in_ring
  cases content : table.cells[(slotHash key + m) % table.cells.length] with
  | empty =>
    rw [content] at here
    rw [visitInsert_empty here] at stopped
    cases stopped
    refine ⟨tombstone, _, rfl, here, ⟨m, lt, rfl, unbroken⟩, fun t eq => ?_⟩
    obtain ⟨at_t, m', lt', steps⟩ := met t eq
    exact ⟨at_t, m', lt'.trans lt, steps, fun k ltk => unbroken k (ltk.trans lt')⟩
  | tombstone =>
    rw [content] at here
    rw [visitInsert_tombstone here] at stopped
    cases stopped
  | full j =>
    rw [content] at here
    have other : j ≠ i := by
      rintro rfl
      exact absent _ here
    rw [visitInsert_full here, if_neg other] at stopped
    cases stopped

lemma walk_visitInsert_present (ok : TableOk entries table map)
    (pow : table.cells.length = 1024 * 2 ^ n) (present : map.lookup key = some i)
    {found : Option (Option ℕ × ℕ)}
    (ended : walk (nextSlot table.cells.length) (visitInsert table.cells i) table.cells.length
      (firstSlot table.cells.length key) none = some found) : found = none := by
  have pos := size_pos pow
  let Passed : ℕ → Option ℕ → Prop := fun m _ => ∀ m' < m,
    table.cells[(slotHash key + m') % table.cells.length]? ≠ some (.full i)
  have keep : ∀ m tombstone tombstone', Passed m tombstone →
      visitInsert table.cells i ((nextSlot table.cells.length)^[m]
        (firstSlot table.cells.length key)) tombstone = .inl tombstone' →
      Passed (m + 1) tombstone' := by
    intro m tombstone tombstone' passed went m' lt here
    rcases Nat.lt_succ_iff_lt_or_eq.mp lt with lt | rfl
    · exact passed m' lt here
    · rw [slot_after pow, visitInsert_full here, if_pos rfl] at went
      cases went
  obtain ⟨m, tombstone, -, passed, stopped⟩ :=
    walk_spec keep (fun m' lt => absurd lt (Nat.not_lt_zero _)) ended
  rw [slot_after pow] at stopped
  have in_ring : (slotHash key + m) % table.cells.length < table.cells.length := Nat.mod_lt _ pos
  have here := List.getElem?_eq_getElem in_ring
  cases content : table.cells[(slotHash key + m) % table.cells.length] with
  | empty =>
    rw [content] at here
    exact absurd present (ok.represents.not_found passed here)
  | tombstone =>
    rw [content] at here
    rw [visitInsert_tombstone here] at stopped
    cases stopped
  | full j =>
    rw [content] at here
    rw [visitInsert_full here] at stopped
    split_ifs at stopped
    cases stopped
    rfl

lemma TableOk.fill (ok : TableOk entries table map) (ins : Inserting entries map i key)
    (pow : table.cells.length = 1024 * 2 ^ n) (le : n ≤ 21)
    (linked : Linked table.cells (slotHash key) slot)
    (not_full : ∀ v, table.cells[slot]? ≠ some (.full v)) {occupied : ℕ}
    (exact_occupied : occupied = countUsed (table.cells.set slot (.full i)))
    (load : occupied * 4 ≤ table.cells.length * 3 ∨ table.cells.length = maxCells) :
    TableOk entries ⟨table.cells.set slot (.full i), table.used + 1, occupied⟩
      (map.insert key i) := by
  have lt : slot < table.cells.length := by
    obtain ⟨m, -, rfl, -⟩ := linked
    exact Nat.mod_lt _ (size_pos pow)
  refine ⟨ok.represents.insert ins.live ins.new linked not_full, .inr ⟨n, le, ?_⟩, ?_,
    exact_occupied, ?_, ?_⟩
  · rw [List.length_set, pow]
  · rw [countFull_fill lt not_full, ok.used]
  · rw [ins.count, ok.count]
  · rwa [List.length_set]

/-- `table_insert` puts the entry under its key. -/
theorem tableInsert_spec (ok : TableOk entries table map) (ins : Inserting entries map i key)
    (ended : tableInsert entries table i = some table') :
    TableOk entries table' (map.insert key i) ∧ Grown table table' ∧
      (table.occupied = table.used → table'.occupied = table'.used) := by
  obtain ⟨reserved, reserve, ended⟩ := Option.bind_eq_some_iff.mp ended
  obtain ⟨entry, at_i, ended⟩ := Option.bind_eq_some_iff.mp ended
  obtain ⟨found, looped, ended⟩ := Option.bind_eq_some_iff.mp ended
  obtain ⟨entry', at_i', -, is_key⟩ := keyOf_eq_some.mp ins.live
  rw [at_i] at at_i'
  cases at_i'
  rw [is_key] at looped
  obtain ⟨grown, cases'⟩ := tableReserve_spec ok ins reserve
  rcases cases' with ⟨rfl, some_cells, load⟩ | ⟨ok', some_cells, -, clean⟩
  · obtain ⟨n, le, pow⟩ := ok.size.resolve_left some_cells
    have absent : ∀ slot : ℕ, reserved.cells[slot]? ≠ some (.full i) := by
      intro slot here
      obtain ⟨k, is_k, looked, -⟩ := ok.represents.stored here
      rw [ins.live] at is_k
      cases is_k
      rw [ins.new] at looked
      cases looked
    obtain ⟨tombstone, slot, rfl, here, linked, met⟩ := walk_visitInsert_absent pow absent looped
    cases tombstone with
    | none =>
      cases ended
      have used := countUsed_fill_empty (v := i) here
      refine ⟨ok.fill ins pow le linked (fun v full => ?_) ?_ load, .inl List.length_set,
        congrArg (· + 1)⟩
      · rw [here] at full
        cases full
      · rw [used, ok.occupied]
    | some t =>
      cases ended
      obtain ⟨at_t, linked'⟩ := met t rfl
      have used := countUsed_fill_tombstone (v := i) at_t
      have ok' := ok.fill ins pow le linked' (fun v full => by rw [at_t] at full; cases full)
        (by rw [used, ok.occupied]) ok.load
      refine ⟨ok', .inl List.length_set, fun clean => ?_⟩
      -- a table without tombstones would have more full cells than cells in use
      have more : reserved.used + 1 ≤ reserved.occupied := ok'.used_le
      omega
  · obtain ⟨n, le, pow⟩ := ok'.size.resolve_left some_cells
    have nothing := walk_visitInsert_present ok' pow (AList.lookup_insert _) looped
    subst nothing
    cases ended
    exact ⟨ok', grown, fun _ => clean⟩

/-- `table_insert` ends when the table has an empty cell. -/
theorem tableInsert_isSome (ok : TableOk entries table map) (ins : Inserting entries map i key)
    (room : table.cells = [] ∨ countUsed table.cells < table.cells.length) :
    ∃ table', tableInsert entries table i = some table' := by
  obtain ⟨reserved, reserve⟩ := tableReserve_isSome ok ins
  obtain ⟨entry, at_i, -⟩ := keyOf_eq_some.mp ins.live
  have size : ∃ n, reserved.cells.length = 1024 * 2 ^ n ∧
      countUsed reserved.cells < reserved.cells.length := by
    rcases (tableReserve_spec ok ins reserve).2 with ⟨rfl, some_cells, -⟩ |
        ⟨ok', some_cells, free, -⟩
    · obtain ⟨n, -, pow⟩ := ok.size.resolve_left some_cells
      exact ⟨n, pow, room.resolve_left some_cells⟩
    · obtain ⟨n, -, pow⟩ := ok'.size.resolve_left some_cells
      exact ⟨n, pow, free⟩
  obtain ⟨n, pow, free⟩ := size
  obtain ⟨slot, lt, here⟩ := exists_empty free
  obtain ⟨m, lt', at_slot⟩ := exists_steps (slotHash entry.key) lt
  have stop : ∀ tombstone, (visitInsert reserved.cells i
      ((nextSlot reserved.cells.length)^[m] (firstSlot reserved.cells.length entry.key))
      tombstone).isRight := by
    intro tombstone
    rw [slot_after pow, at_slot, visitInsert_empty here]
    rfl
  obtain ⟨found, looped⟩ := walk_isSome (s := none) lt' stop
  refine Option.isSome_iff_exists.mp ?_
  rw [tableInsert, reserve]
  simp only [Option.bind_eq_bind, Option.bind_some, at_i, looped]
  rcases found with _ | ⟨_ | t, slot⟩ <;> rfl

end Insert

end PulseEngine.Font
