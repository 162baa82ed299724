import PulseEngine.Asset.Basic
import PulseEngine.Library.Probing
import PulseEngine.Library.Emplace

/-!
# The glyph table

The hash table of `pulse_font/src/font_atlas.cpp`: cells with numbers of glyph entries, found by
linear probing over a power of two, with tombstones for the glyphs that are gone. Counters and sizes
are `uint32_t` or `size_t`; the products in which that matters wrap explicitly. The cell values
`kTableEmpty`, `kTableTombstone` and `entry_index + 1` are the constructors of `Cell`. A loop that
goes round the whole table never ends, so the size of the table is fuel enough for it.
-/

namespace PulseEngine.Font

open Asset Library

def u32 (n : ℕ) : ℕ := n % 2 ^ 32

abbrev kTierCount : ℕ := 2

instance : NeZero kTierCount := ⟨two_ne_zero⟩

/-- `glyph_key`; `tier` is an index into `kTierBaseSizes`. -/
structure GlyphKey where
  font : Handle := .invalid
  codepoint : UInt32 := 0
  tier : Fin kTierCount := 0
  deriving DecidableEq, Repr

/-- `glyph_entry::page` and `glyph_entry::slot`. -/
structure Place where
  page : ℕ
  slot : ℕ
  deriving DecidableEq, Repr

/-- `glyph_entry`. The place is missing while both numbers are `kInvalidIndex`; the metrics of the
glyph are left out. -/
structure GlyphEntry where
  key : GlyphKey := {}
  place : Option Place := none
  occupied : Bool := false
  lastUsed : UInt64 := 0
  deriving DecidableEq, Repr

def hashKey (key : GlyphKey) : UInt32 :=
  let h := UInt32.ofNat key.font.index * 0x9E3779B1
  let h := h ^^^ UInt32.ofNat key.font.generation * 0xC2B2AE3D
  let h := h ^^^ key.codepoint * 0x85EBCA77
  let h := h ^^^ UInt32.ofNat key.tier * 0x27D4EB2F
  let h := h ^^^ (h >>> 15)
  let h := h * 0x2545F491
  h ^^^ (h >>> 13)

def keyEqual (a b : GlyphKey) : Bool :=
  a.font == b.font && a.codepoint == b.codepoint && a.tier == b.tier

/-- `state->table` with `table_used` and `table_occupied`. -/
structure GlyphTable where
  cells : List (Cell ℕ) := []
  used : ℕ := 0
  occupied : ℕ := 0
  deriving DecidableEq, Repr

/-- The first slot of a key, `hash_key(key) & mask`. -/
def firstSlot (size : ℕ) (key : GlyphKey) : ℕ := (hashKey key).toNat &&& (size - 1)

def nextSlot (size slot : ℕ) : ℕ := (slot + 1) &&& (size - 1)

/-- The test for the key in the loops of `table_find` and `table_remove`. -/
def holdsKey (entries : List GlyphEntry) (key : GlyphKey) (index : ℕ) : Bool :=
  match entries[index]? with
  | some entry => entry.occupied && keyEqual entry.key key
  | none => false

def visitFree (next : List (Cell ℕ)) (slot : ℕ) (_ : Unit) : Unit ⊕ ℕ :=
  match next.getD slot .empty with
  | .empty => .inr slot
  | _ => .inl ()

/-- The loop of `table_rehash` from the entry `i` on. -/
def rehashFrom (newSize : ℕ) : List GlyphEntry → ℕ → List (Cell ℕ) → ℕ → Option GlyphTable
  | [], _, next, used => some ⟨next, used, used⟩
  | entry :: entries, i, next, used =>
    if entry.occupied then do
      let slot ← walk (nextSlot newSize) (visitFree next) newSize (firstSlot newSize entry.key) ()
      rehashFrom newSize entries (i + 1) (next.set slot (.full i)) (used + 1)
    else rehashFrom newSize entries (i + 1) next used

def tableRehash (entries : List GlyphEntry) (newSize : ℕ) : Option GlyphTable :=
  rehashFrom newSize entries 0 (List.replicate newSize .empty) 0

def tableReserve (entries : List GlyphEntry) (table : GlyphTable) : Option GlyphTable :=
  if table.cells.isEmpty then tableRehash entries 1024
  else if u32 ((table.occupied + 1) * 4) < table.cells.length * 3 then some table
  else tableRehash entries <| u32 <|
    if u32 (table.used * 4) ≥ table.cells.length * 3 then table.cells.length * 2
    else table.cells.length

/-- A visit of the loop of `table_insert`; the state is the first tombstone. The result is missing
when the entry is there already. -/
def visitInsert (cells : List (Cell ℕ)) (index slot : ℕ) (tombstone : Option ℕ) :
    Option ℕ ⊕ Option (Option ℕ × ℕ) :=
  match cells.getD slot .empty with
  | .empty => .inr (some (tombstone, slot))
  | .tombstone => .inl (tombstone <|> some slot)
  | .full i => if i = index then .inr none else .inl tombstone

def tableInsert (entries : List GlyphEntry) (table : GlyphTable) (index : ℕ) :
    Option GlyphTable := do
  let table ← tableReserve entries table
  let size := table.cells.length
  let entry ← entries[index]?
  match ← walk (nextSlot size) (visitInsert table.cells index) size (firstSlot size entry.key)
      none with
  | none => some table
  | some (some tombstone, _) =>
    some { table with cells := table.cells.set tombstone (.full index), used := table.used + 1 }
  | some (none, slot) =>
    some ⟨table.cells.set slot (.full index), table.used + 1, table.occupied + 1⟩

/-- A visit of the loops of `table_find` and `table_remove`. -/
def visitFind (entries : List GlyphEntry) (cells : List (Cell ℕ)) (key : GlyphKey) (slot : ℕ)
    (_ : Unit) : Unit ⊕ Option (ℕ × ℕ) :=
  match cells.getD slot .empty with
  | .empty => .inr none
  | .tombstone => .inl ()
  | .full i => if holdsKey entries key i then .inr (some (slot, i)) else .inl ()

/-- The loop of `table_find` and `table_remove`: the slot of the key and the entry in it. -/
def tableSeek (entries : List GlyphEntry) (table : GlyphTable) (key : GlyphKey) :
    Option (Option (ℕ × ℕ)) :=
  if table.cells.isEmpty then some none
  else
    let size := table.cells.length
    walk (nextSlot size) (visitFind entries table.cells key) size (firstSlot size key) ()

def tableFind (entries : List GlyphEntry) (table : GlyphTable) (key : GlyphKey) :
    Option (Option ℕ) :=
  (tableSeek entries table key).map fun found => found.map (·.2)

def tableRemove (entries : List GlyphEntry) (table : GlyphTable) (key : GlyphKey) :
    Option GlyphTable :=
  (tableSeek entries table key).map fun
    | some (slot, _) =>
      { table with cells := table.cells.set slot .tombstone, used := table.used - 1 }
    | none => table

end PulseEngine.Font

/-!
## The glyph table as a map

`TableOk` relates the table to the finite map that it stands for. One lemma for each operation says
what it does to the map, and one when it ends: the loops need an empty cell, and there is one as
long as the load factor is kept. Here are the operations that look for a key.
-/

namespace PulseEngine.Font

open Asset Library

abbrev GlyphMap := AList fun _ : GlyphKey => ℕ

def keyOf (entries : List GlyphEntry) (i : ℕ) : Option GlyphKey :=
  entries[i]?.bind fun entry => if entry.occupied then some entry.key else none

def slotHash (key : GlyphKey) : ℕ := (hashKey key).toNat

def maxCells : ℕ := 2 ^ 31

structure TableOk (entries : List GlyphEntry) (table : GlyphTable) (map : GlyphMap) : Prop where
  represents : Represents slotHash (keyOf entries) table.cells map
  size : table.cells = [] ∨ ∃ n ≤ 21, table.cells.length = 1024 * 2 ^ n
  /-- `table_used` is the number of cells with an entry. -/
  used : table.used = countFull table.cells
  /-- `table_occupied` is the number of cells that are not empty. -/
  occupied : table.occupied = countUsed table.cells
  /-- `table_used` is the number of keys. -/
  count : map.keys.length = table.used
  /-- At most three quarters of the cells are in use, unless the table is as large as can be. -/
  load : table.occupied * 4 ≤ table.cells.length * 3 ∨ table.cells.length = maxCells

variable {entries entries' : List GlyphEntry} {table table' : GlyphTable} {map map' : GlyphMap}
  {key : GlyphKey} {i : ℕ}

lemma keyOf_eq_some : keyOf entries i = some key ↔
    ∃ entry, entries[i]? = some entry ∧ entry.occupied = true ∧ entry.key = key := by
  simp [keyOf, Option.bind_eq_some_iff]

lemma keyEqual_iff {a b : GlyphKey} : keyEqual a b = true ↔ a = b := by
  cases a
  cases b
  simp [keyEqual, and_assoc]

lemma holdsKey_iff : holdsKey entries key i = true ↔ keyOf entries i = some key := by
  rw [holdsKey, keyOf_eq_some]
  cases entries[i]? with
  | none => simp
  | some entry => simp [keyEqual_iff]

section Ring

variable {size n slot : ℕ}

lemma mask_eq (pow : size = 1024 * 2 ^ n) (x : ℕ) : x &&& (size - 1) = x % size := by
  have : size = 2 ^ (10 + n) := by rw [pow, Nat.pow_add]
  rw [this, Nat.and_two_pow_sub_one_eq_mod]

lemma nextSlot_eq (pow : size = 1024 * 2 ^ n) : nextSlot size slot = (slot + 1) % size :=
  mask_eq pow _

lemma firstSlot_eq (pow : size = 1024 * 2 ^ n) : firstSlot size key = slotHash key % size :=
  mask_eq pow _

lemma size_pos (pow : size = 1024 * 2 ^ n) : 0 < size := by
  rw [pow]
  positivity

lemma slot_after (pow : size = 1024 * 2 ^ n) (m : ℕ) :
    (nextSlot size)^[m] (firstSlot size key) = (slotHash key + m) % size := by
  rw [firstSlot_eq pow]
  exact ring_iterate (fun t => nextSlot_eq pow) m _

end Ring

section Visit

variable {cells : List (Cell ℕ)} {slot : ℕ} {u : Unit}

lemma getD_of_some {c : Cell ℕ} (here : cells[slot]? = some c) : cells.getD slot .empty = c := by
  rw [List.getD_eq_getElem?_getD, here, Option.getD_some]

lemma visitFind_empty (here : cells[slot]? = some .empty) :
    visitFind entries cells key slot u = .inr none := by
  rw [visitFind, getD_of_some here]

lemma visitFind_tombstone (here : cells[slot]? = some .tombstone) :
    visitFind entries cells key slot u = .inl () := by
  rw [visitFind, getD_of_some here]

lemma visitFind_full (here : cells[slot]? = some (.full i)) :
    visitFind entries cells key slot u =
      if keyOf entries i = some key then .inr (some (slot, i)) else .inl () := by
  rw [visitFind, getD_of_some here]
  simp only [holdsKey_iff]

end Visit

lemma TableOk.frame (ok : TableOk entries table map)
    (same : ∀ k i, map.lookup k = some i → keyOf entries' i = keyOf entries i) :
    TableOk entries' table map :=
  { ok with represents := ok.represents.frame same }

lemma TableOk.clear : TableOk entries {} ∅ :=
  ⟨Represents.clear 0, .inl rfl, rfl, rfl, rfl, .inl le_rfl⟩

lemma TableOk.used_le (ok : TableOk entries table map) : table.used ≤ table.occupied := by
  rw [ok.used, ok.occupied]
  exact countFull_le_used _

lemma TableOk.room (ok : TableOk entries table map) (some_cells : table.cells ≠ [])
    (small : table.cells.length < maxCells) : countUsed table.cells < table.cells.length := by
  have pos : 0 < table.cells.length := List.length_pos_iff.mpr some_cells
  have load := ok.load
  rw [← ok.occupied]
  omega

section Seek

lemma tableSeek_spec (ok : TableOk entries table map) {found : Option (ℕ × ℕ)}
    (sought : tableSeek entries table key = some found) :
    match found with
    | some (slot, i) => table.cells[slot]? = some (.full i) ∧ keyOf entries i = some key
        ∧ map.lookup key = some i
    | none => map.lookup key = none := by
  rw [tableSeek] at sought
  rcases ok.size with empty | ⟨n, -, pow⟩
  · rw [empty] at sought
    cases sought
    cases here : map.lookup key with
    | none => rfl
    | some i =>
      obtain ⟨-, t, at_t⟩ := ok.represents.held here
      rw [empty] at at_t
      cases at_t
  have pos := size_pos pow
  have cells : table.cells.isEmpty = false := by
    rw [List.isEmpty_eq_false_iff]
    exact List.length_pos_iff.mp pos
  rw [cells, if_neg Bool.false_ne_true] at sought
  -- before the step `m` no cell of the walk holds the key
  let Passed : ℕ → Unit → Prop := fun m _ => ∀ m' < m, ∀ i, keyOf entries i = some key →
    table.cells[(slotHash key + m') % table.cells.length]? ≠ some (.full i)
  have keep : ∀ m u u', Passed m u →
      visitFind entries table.cells key
        ((nextSlot table.cells.length)^[m] (firstSlot table.cells.length key)) u = .inl u' →
      Passed (m + 1) u' := by
    intro m u u' passed went m' lt i is_key here
    rcases Nat.lt_succ_iff_lt_or_eq.mp lt with lt | rfl
    · exact passed m' lt i is_key here
    · rw [slot_after pow, visitFind_full here, if_pos is_key] at went
      cases went
  obtain ⟨m, _, lt, passed, stopped⟩ :=
    walk_spec keep (fun m' lt => absurd lt (Nat.not_lt_zero _)) sought
  rw [slot_after pow] at stopped
  have in_ring : (slotHash key + m) % table.cells.length < table.cells.length := Nat.mod_lt _ pos
  have here := List.getElem?_eq_getElem in_ring
  cases content : table.cells[(slotHash key + m) % table.cells.length] with
  | tombstone =>
    rw [content] at here
    rw [visitFind_tombstone here] at stopped
    cases stopped
  | empty =>
    rw [content] at here
    rw [visitFind_empty here] at stopped
    cases stopped
    cases looked : map.lookup key with
    | none => rfl
    | some i =>
      have is_key := (ok.represents.held looked).1
      exact absurd looked
        (ok.represents.not_found (fun m' lt' => passed m' lt' i is_key) here)
  | full i =>
    rw [content] at here
    rw [visitFind_full here] at stopped
    split_ifs at stopped with is_key
    cases stopped
    obtain ⟨k, is_k, looked, -⟩ := ok.represents.stored here
    rw [is_key] at is_k
    cases is_k
    exact ⟨here, is_key, looked⟩

lemma tableSeek_isSome (key : GlyphKey) (ok : TableOk entries table map)
    (room : table.cells = [] ∨ countUsed table.cells < table.cells.length) :
    ∃ found, tableSeek entries table key = some found := by
  rw [tableSeek]
  rcases ok.size with empty | ⟨n, -, pow⟩
  · rw [empty]
    exact ⟨none, rfl⟩
  have pos := size_pos pow
  have some_cells : table.cells ≠ [] := List.length_pos_iff.mp pos
  rw [List.isEmpty_eq_false_iff.mpr some_cells, if_neg Bool.false_ne_true]
  obtain ⟨slot, lt, here⟩ := exists_empty (room.resolve_left some_cells)
  obtain ⟨m, lt', at_slot⟩ := exists_steps (slotHash key) lt
  refine walk_isSome lt' fun _ => ?_
  rw [slot_after pow, at_slot, visitFind_empty here]
  rfl

lemma tableSeek_eq_none (ok : TableOk entries table map) (absent : map.lookup key = none)
    (some_cells : table.cells ≠ []) (full : countUsed table.cells = table.cells.length) :
    tableSeek entries table key = none := by
  rw [tableSeek, List.isEmpty_eq_false_iff.mpr some_cells, if_neg Bool.false_ne_true]
  obtain ⟨n, -, pow⟩ := ok.size.resolve_left some_cells
  refine walk_eq_none fun m _ => ?_
  have lt : (slotHash key + m) % table.cells.length < table.cells.length :=
    Nat.mod_lt _ (size_pos pow)
  rw [slot_after pow]
  have here := List.getElem?_eq_getElem lt
  cases content : table.cells[(slotHash key + m) % table.cells.length] with
  | empty => exact absurd (content ▸ here) (ne_empty full _)
  | tombstone =>
    rw [content] at here
    rw [visitFind_tombstone here]
    rfl
  | full i =>
    rw [content] at here
    have other : keyOf entries i ≠ some key := by
      intro is_key
      obtain ⟨k, is_k, looked, -⟩ := ok.represents.stored here
      rw [is_key] at is_k
      cases is_k
      rw [absent] at looked
      cases looked
    rw [visitFind_full here, if_neg other]
    rfl

/-- `table_find` looks the key up. -/
theorem tableFind_spec (ok : TableOk entries table map) {found : Option ℕ}
    (ended : tableFind entries table key = some found) : found = map.lookup key := by
  obtain ⟨sought, seek, rfl⟩ := Option.map_eq_some_iff.mp ended
  have spec := tableSeek_spec ok seek
  cases sought with
  | none => exact spec.symm
  | some at_slot => exact spec.2.2.symm

theorem tableFind_isSome (key : GlyphKey) (ok : TableOk entries table map)
    (room : table.cells = [] ∨ countUsed table.cells < table.cells.length) :
    tableFind entries table key = some (map.lookup key) := by
  obtain ⟨sought, seek⟩ := tableSeek_isSome key ok room
  have ended : tableFind entries table key = some (sought.map (·.2)) := by
    rw [tableFind, seek, Option.map_some]
  rw [ended, tableFind_spec ok ended]

lemma lookup_erase_of_none (absent : map.lookup key = none) (k : GlyphKey) :
    (map.erase key).lookup k = map.lookup k := by
  by_cases eq : k = key
  · rw [eq, AList.lookup_erase, absent]
  · exact AList.lookup_erase_ne eq

/-- `table_remove` takes the key out. -/
theorem tableRemove_spec (ok : TableOk entries table map)
    (ended : tableRemove entries table key = some table') :
    TableOk entries table' (map.erase key) ∧ table'.cells.length = table.cells.length
      ∧ table'.used ≤ table.used := by
  obtain ⟨sought, seek, rfl⟩ := Option.map_eq_some_iff.mp ended
  have spec := tableSeek_spec ok seek
  cases sought with
  | none =>
    have keys : (map.erase key).keys = map.keys := by
      rw [AList.keys_erase, List.erase_of_not_mem]
      rw [← AList.mem_keys]
      exact AList.lookup_eq_none.mp spec
    refine ⟨?_, rfl, le_rfl⟩
    exact { ok with
      represents := ok.represents.congr (lookup_erase_of_none spec)
      count := by rw [keys, ok.count] }
  | some at_slot =>
    obtain ⟨slot, i⟩ := at_slot
    obtain ⟨here, is_key, looked⟩ := spec
    have full := countFull_bury here
    have used := ok.used
    have mem : key ∈ map.keys := by
      rw [← AList.mem_keys, ← AList.lookup_isSome, looked]
      rfl
    have count : (map.erase key).keys.length = table.used - 1 := by
      rw [AList.keys_erase, List.length_erase_of_mem mem, ok.count]
    refine ⟨⟨ok.represents.erase here is_key, ?_, ?_, ?_, count, ?_⟩, List.length_set, ?_⟩
    · rcases ok.size with empty | ⟨n, le, pow⟩
      · rw [empty] at here
        cases here
      · exact .inr ⟨n, le, by rw [List.length_set, pow]⟩
    · show table.used - 1 = countFull (table.cells.set slot .tombstone)
      omega
    · show table.occupied = countUsed (table.cells.set slot .tombstone)
      rw [countUsed_bury here, ok.occupied]
    · simpa only [List.length_set] using ok.load
    · exact Nat.sub_le _ _

theorem tableRemove_isSome (key : GlyphKey) (ok : TableOk entries table map)
    (room : table.cells = [] ∨ countUsed table.cells < table.cells.length) :
    ∃ table', tableRemove entries table key = some table' := by
  obtain ⟨sought, seek⟩ := tableSeek_isSome key ok room
  exact ⟨_, by rw [tableRemove, seek, Option.map_some]⟩

end Seek

end PulseEngine.Font
