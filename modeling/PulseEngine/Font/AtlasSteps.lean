import PulseEngine.Font.AtlasSound

/-!
# Every call keeps the atlas in order

One lemma for each function of the atlas over the finite map, and from them that every call keeps
the invariant.
-/

namespace PulseEngine.Font

open Asset Library

variable {s s' : FontState GlyphMap} {i p : ℕ} {key k : GlyphKey} {entry : GlyphEntry}
  {tier : Fin kTierCount} {found : Option ℕ}

lemma lookup_erase_eq (map : GlyphMap) (k : GlyphKey) :
    (fun k' => (map.erase k).lookup k') = Function.update (fun k' => map.lookup k') k none := by
  funext k'
  by_cases eq : k' = k
  · subst eq
    rw [AList.lookup_erase, Function.update_self]
  · rw [AList.lookup_erase_ne eq, Function.update_of_ne eq]

lemma lookup_insert_eq (map : GlyphMap) (k : GlyphKey) (i : ℕ) :
    (fun k' => (map.insert k i).lookup k') =
      Function.update (fun k' => map.lookup k') k (some i) := by
  funext k'
  by_cases eq : k' = k
  · subst eq
    rw [AList.lookup_insert, Function.update_self]
  · rw [AList.lookup_insert_ne eq, Function.update_of_ne eq]

section Entries

lemma Sound.alloc (sound : Sound s) : Allocated (allocEntry s).1 (allocEntry s).2 := by
  cases free : s.freeEntries with
  | nil =>
    have eq : allocEntry s =
        ({ s with entries := s.entries ++ [{}] }, s.entries.length) := by
      rw [allocEntry, free]
    rw [eq]
    have keys : keyOf (s.entries ++ [({} : GlyphEntry)]) = keyOf s.entries := liveField_append
    have places : placeOf (s.entries ++ [({} : GlyphEntry)]) = placeOf s.entries :=
      liveField_append
    refine ⟨⟨⟨?_, ?_, sound.distinct⟩, sound.tidy, ?_⟩, ?_, ?_, ?_⟩
    · exact sound.covers.congr (fun j => congrFun keys j) fun _ => rfl
    · intro j mem
      rw [show ({ s with entries := s.entries ++ [{}] } : FontState GlyphMap).freeEntries
        = s.freeEntries from rfl, free] at mem
      cases mem
    · exact sound.named.congr (fun j => congrFun places j) fun _ => rfl
    · simp
    · show keyOf (s.entries ++ [({} : GlyphEntry)]) s.entries.length = none
      rw [keys, keyOf, List.getElem?_eq_none le_rfl]
      rfl
    · show s.entries.length ∉ s.freeEntries
      rw [free]
      exact List.not_mem_nil
  | cons j rest =>
    have eq : allocEntry s =
        ({ s with freeEntries := rest, entries := s.entries.set j {} }, j) := by
      rw [allocEntry, free]
    rw [eq]
    obtain ⟨lt, dead⟩ := sound.free j (by rw [free]; exact List.mem_cons_self)
    have keys : keyOf (s.entries.set j {}) = keyOf s.entries := by
      rw [keyOf_eq, liveField_clear lt]
      exact update_dead dead
    have places : placeOf (s.entries.set j {}) = placeOf s.entries := by
      rw [placeOf, liveField_clear lt]
      exact update_dead (placeOf_of_dead dead)
    have distinct := sound.distinct
    rw [free, List.nodup_cons] at distinct
    refine ⟨⟨⟨?_, ?_, distinct.2⟩, sound.tidy, ?_⟩, ?_, ?_, distinct.1⟩
    · exact sound.covers.congr (fun i => congrFun keys i) fun _ => rfl
    · intro i mem
      obtain ⟨lt', dead'⟩ := sound.free i (by rw [free]; exact List.mem_cons_of_mem j mem)
      refine ⟨by rwa [List.length_set], ?_⟩
      show keyOf (s.entries.set j {}) i = none
      rw [keys, dead']
    · exact sound.named.congr (fun i => congrFun places i) fun _ => rfl
    · show j < (s.entries.set j {}).length
      rwa [List.length_set]
    · show keyOf (s.entries.set j {}) j = none
      rw [keys, dead]

lemma Sound.alloc_keys (sound : Sound s) : keyOf (allocEntry s).1.entries = keyOf s.entries := by
  rw [allocEntry]
  cases free : s.freeEntries with
  | nil => exact liveField_append
  | cons i rest =>
    obtain ⟨lt, dead⟩ := sound.free i (by rw [free]; exact List.mem_cons_self)
    show keyOf (s.entries.set i {}) = keyOf s.entries
    rw [keyOf_eq, liveField_clear lt]
    exact update_dead dead

lemma Allocated.free_entry (allocated : Allocated s i) : Sound (freeEntry s i) := by
  have keys : keyOf (s.entries.set i {}) = keyOf s.entries := by
    rw [keyOf_eq, liveField_clear allocated.lt]
    exact update_dead allocated.dead
  have places : placeOf (s.entries.set i {}) = placeOf s.entries := by
    rw [placeOf, liveField_clear allocated.lt]
    exact update_dead (placeOf_of_dead allocated.dead)
  refine ⟨⟨?_, ?_, List.nodup_cons.mpr ⟨allocated.taken, allocated.distinct⟩⟩, allocated.tidy, ?_⟩
  · exact allocated.covers.congr (fun j => congrFun keys j) fun _ => rfl
  · intro j mem
    show j < (s.entries.set i {}).length ∧ keyOf (s.entries.set i {}) j = none
    rw [List.length_set, keys]
    rcases List.mem_cons.mp mem with rfl | mem
    · exact ⟨allocated.lt, allocated.dead⟩
    · exact allocated.free j mem
  · exact allocated.named.congr (fun j => congrFun places j) fun _ => rfl

lemma Filed.drop (filed : Filed s) (live : keyOf s.entries i = some k) (pages : List AtlasPage) :
    Filed (freeEntry { s with table := s.table.erase k, pages } i) := by
  have lt : i < s.entries.length := keyOf_lt live
  have keys : keyOf (s.entries.set i {}) = Function.update (keyOf s.entries) i none :=
    liveField_clear lt
  refine ⟨?_, ?_, List.nodup_cons.mpr ⟨?_, filed.distinct⟩⟩
  · show Inverse (keyOf (s.entries.set i {})) fun k' => (s.table.erase k).lookup k'
    rw [keys, lookup_erase_eq]
    exact Inverse.unlink filed.covers live
  · intro j mem
    show j < (s.entries.set i {}).length ∧ keyOf (s.entries.set i {}) j = none
    rw [List.length_set, keys]
    by_cases eq : j = i
    · subst eq
      exact ⟨lt, Function.update_self ..⟩
    · rw [Function.update_of_ne eq]
      exact filed.free j ((List.mem_cons.mp mem).resolve_left eq)
  · intro mem
    rw [(filed.free i mem).2] at live
    cases live

end Entries

section Evict

/-- What `page_evict_lru` does with the entries of the victim. -/
structure Evicted (s s' : FontState GlyphMap) (slots : List (Option ℕ)) : Prop extends
    Filed s' where
  pages : s'.pages = s.pages
  desc : s'.desc = s.desc
  length : s'.entries.length = s.entries.length
  place : ∀ j, placeOf s'.entries j = if some j ∈ slots then none else placeOf s.entries j
  keys : ∀ j, keyOf s.entries j = none → keyOf s'.entries j = none
  lookup : ∀ k, s.table.lookup k = none → s'.table.lookup k = none
  freed : ∀ j ∈ s'.freeEntries, j ∈ s.freeEntries ∨ some j ∈ slots

lemma evictSlots_spec {slots : List (Option ℕ)} (filed : Filed s)
    (distinct : ∀ (a b j : ℕ), slots[a]? = some (some j) → slots[b]? = some (some j) → a = b)
    (live : ∀ j, some j ∈ slots → keyOf s.entries j ≠ none)
    (ended : evictSlots mapIndex slots s = some s') : Evicted s s' slots := by
  induction slots generalizing s with
  | nil =>
    cases ended
    exact ⟨filed, rfl, rfl, rfl, by simp, fun _ dead => dead, fun _ absent => absent,
      fun _ mem => .inl mem⟩
  | cons content slots ih =>
    have distinct' : ∀ (a b j : ℕ), slots[a]? = some (some j) → slots[b]? = some (some j) →
        a = b := by
      intro a b j at_a at_b
      exact Nat.succ.inj (distinct (a + 1) (b + 1) j at_a at_b)
    cases content with
    | none =>
      have done := ih filed distinct' (fun j mem => live j (List.mem_cons_of_mem _ mem)) ended
      refine ⟨done.toFiled, done.pages, done.desc, done.length, ?_, done.keys, done.lookup, ?_⟩
      · simpa using done.place
      · intro j mem
        exact (done.freed j mem).imp_right (List.mem_cons_of_mem _)
    | some i =>
      obtain ⟨entry, here, ended⟩ := Option.bind_eq_some_iff.mp ended
      obtain ⟨table, removed, ended⟩ := Option.bind_eq_some_iff.mp ended
      cases removed
      obtain ⟨k, is_k⟩ := Option.ne_none_iff_exists'.mp (live i List.mem_cons_self)
      obtain ⟨entry', here', -, is_key⟩ := keyOf_eq_some.mp is_k
      rw [here] at here'
      cases here'
      rw [is_key] at ended
      have lt : i < s.entries.length := keyOf_lt is_k
      have keys : keyOf (s.entries.set i {}) = Function.update (keyOf s.entries) i none :=
        liveField_clear lt
      have places : placeOf (s.entries.set i {}) = Function.update (placeOf s.entries) i none :=
        liveField_clear lt
      have not_later : some i ∉ slots := by
        intro mem
        obtain ⟨a, at_a⟩ := List.mem_iff_getElem?.mp mem
        exact absurd (distinct 0 (a + 1) i rfl at_a) (Nat.succ_ne_zero a).symm
      have live' : ∀ j, some j ∈ slots →
          keyOf (freeEntry { s with table := s.table.erase k } i).entries j ≠ none := by
        intro j mem
        show keyOf (s.entries.set i {}) j ≠ none
        have ne : j ≠ i := by
          rintro rfl
          exact not_later mem
        rw [keys, Function.update_of_ne ne]
        exact live j (List.mem_cons_of_mem _ mem)
      have done := ih (filed.drop is_k s.pages) distinct' live' ended
      refine ⟨done.toFiled, done.pages, done.desc, ?_, fun j => ?_, fun j dead => ?_,
        fun k' absent => ?_, fun j mem => ?_⟩
      · rw [done.length]
        exact List.length_set
      · rw [done.place]
        show (if some j ∈ slots then none else placeOf (s.entries.set i {}) j) = _
        by_cases eq : j = i
        · subst eq
          simp [places]
        · simp [places, eq]
      · refine done.keys j ?_
        show keyOf (s.entries.set i {}) j = none
        rw [keys]
        by_cases eq : j = i
        · rw [eq, Function.update_self]
        · rw [Function.update_of_ne eq, dead]
      · refine done.lookup k' ?_
        show (s.table.erase k).lookup k' = none
        by_cases eq : k' = k
        · rw [eq, AList.lookup_erase]
        · rw [AList.lookup_erase_ne eq, absent]
      · rcases done.freed j mem with old | later
        · rcases List.mem_cons.mp old with rfl | old
          · exact .inr List.mem_cons_self
          · exact .inl old
        · exact .inr (List.mem_cons_of_mem _ later)

lemma lruFrom_lt {pages : List AtlasPage} {start : ℕ} {victim : Option ℕ} {oldest : UInt64} {v : ℕ}
    (found : lruFrom pages start victim oldest = some v) :
    victim = some v ∨ v < start + pages.length := by
  induction pages generalizing start victim oldest with
  | nil => exact .inl found
  | cons page pages ih =>
    rw [lruFrom] at found
    rw [List.length_cons]
    split_ifs at found
    · rcases ih found with same | lt
      · cases same
        exact .inr (by omega)
      · exact .inr (by omega)
    · exact (ih found).imp_right fun lt => by omega

lemma Sound.in_slot {page : AtlasPage} {slot j : ℕ} (sound : Sound s)
    (at_p : s.pages[p]? = some page) (here : page.slotEntries[slot]? = some (some j)) :
    placeOf s.entries j = some ⟨p, slot⟩ :=
  (sound.named j ⟨p, slot⟩).mpr (slotAt_eq_some.mpr ⟨page, at_p, here⟩)

lemma Sound.slots_live {page : AtlasPage} (sound : Sound s) (at_p : s.pages[p]? = some page)
    (j : ℕ) (mem : some j ∈ page.slotEntries) : keyOf s.entries j ≠ none := by
  intro dead
  obtain ⟨slot, here⟩ := List.mem_iff_getElem?.mp mem
  have placed := sound.in_slot at_p here
  rw [placeOf_of_dead dead] at placed
  cases placed

lemma Sound.evicted {page : AtlasPage} (sound : Sound s) (at_p : s.pages[p]? = some page)
    (ended : evictSlots mapIndex page.slotEntries s = some s') :
    Evicted s s' page.slotEntries := by
  have once : ∀ (a b j : ℕ), page.slotEntries[a]? = some (some j) →
      page.slotEntries[b]? = some (some j) → a = b := by
    intro a b j at_a at_b
    have same := sound.in_slot at_p at_a
    rw [sound.in_slot at_p at_b] at same
    cases same
    rfl
  exact evictSlots_spec sound.toFiled once (sound.slots_live at_p) ended

lemma Allocated.evict (allocated : Allocated s i)
    (ended : pageEvictLru mapIndex s tier = some (s', found)) :
    Allocated s' i ∧ ∀ k, s.table.lookup k = none → s'.table.lookup k = none := by
  rw [pageEvictLru] at ended
  split at ended
  next =>
    cases ended
    exact ⟨allocated, fun _ absent => absent⟩
  next victim _ =>
    obtain ⟨page, at_victim, ended⟩ := Option.bind_eq_some_iff.mp ended
    obtain ⟨s₁, evicted, ended⟩ := Option.bind_eq_some_iff.mp ended
    cases ended
    have lt : victim < s.pages.length := (List.getElem?_eq_some_iff.mp at_victim).1
    have done := allocated.toSound.evicted at_victim evicted
    refine ⟨⟨⟨⟨done.covers, done.free, done.distinct⟩, ?_, ?_⟩, ?_, done.keys i allocated.dead,
      fun mem => ?_⟩, done.lookup⟩
    · show ∀ page ∈ s₁.pages.set victim _, page.Tidy
      rw [done.pages]
      exact forall_mem_set allocated.tidy (resetPageSlots_tidy _ _ _)
    · show Inverse (placeOf s₁.entries) (slotAt (s₁.pages.set victim _))
      rw [done.pages]
      have cleared : ∀ place, slotAt (s.pages.set victim
          (resetPageSlots s₁.desc tier (s₁.tick + 1))) place =
            if place.page = victim then none else slotAt s.pages place := by
        intro place
        rw [slotAt_set lt, resetPageSlots_join]
      refine Inverse.congr (allocated.named.restrict (p := fun j => some j ∈ page.slotEntries)
        (q := fun place => place.page = victim) ?_) done.place cleared
      intro j place placed
      constructor
      · intro mem
        obtain ⟨slot, here⟩ := List.mem_iff_getElem?.mp mem
        rw [allocated.in_slot at_victim here] at placed
        cases placed
        rfl
      · intro eq
        obtain ⟨page', at_page, here⟩ := slotAt_eq_some.mp ((allocated.named j place).mp placed)
        rw [eq, at_victim] at at_page
        cases at_page
        exact List.mem_of_getElem? here
    · show i < s₁.entries.length
      rw [done.length]
      exact allocated.lt
    · rcases done.freed i mem with free | held
      · exact allocated.taken free
      · exact allocated.slots_live at_victim i held allocated.dead

lemma Allocated.create (allocated : Allocated s i)
    (made : pageCreate s tier = (s', found)) :
    Allocated s' i ∧ s'.table = s.table := by
  rw [pageCreate] at made
  split_ifs at made
  · cases made
    exact ⟨allocated, rfl⟩
  · cases made
    refine ⟨⟨⟨⟨allocated.covers, allocated.free, allocated.distinct⟩, ?_, ?_⟩, allocated.lt,
      allocated.dead, allocated.taken⟩, rfl⟩
    · intro page mem
      rcases List.mem_append.mp mem with old | new
      · exact allocated.tidy page old
      · rw [List.mem_singleton.mp new]
        exact resetPageSlots_tidy _ _ _
    · show Inverse (placeOf s.entries) (slotAt (s.pages ++ [_]))
      rw [slotAt_append (resetPageSlots_join s.desc tier 0)]
      exact allocated.named

lemma Allocated.page (allocated : Allocated s i)
    (ended : acquirePage mapIndex s tier = some (s', found)) :
    Allocated s' i ∧ ∀ k, s.table.lookup k = none → s'.table.lookup k = none := by
  rw [acquirePage] at ended
  split at ended
  next =>
    cases ended
    exact ⟨allocated, fun _ absent => absent⟩
  next =>
    split_ifs at ended
    · cases made : pageCreate s tier with
      | mk s₁ found₁ =>
        rw [made] at ended
        cases ended
        obtain ⟨allocated', table⟩ := allocated.create made
        exact ⟨allocated', fun k absent => by rw [table, absent]⟩
    · exact allocated.evict ended

end Evict

section Place

lemma Allocated.inserting (allocated : Allocated s i) (absent : s.table.lookup key = none)
    (live : entry.occupied = true) (is_key : entry.key = key) :
    Inserting (s.entries.set i entry) s.table i key := by
  have keys : keyOf (s.entries.set i entry) = Function.update (keyOf s.entries) i (some key) := by
    rw [keyOf_eq, liveField_set allocated.lt, if_pos live, is_key]
  refine ⟨by rw [keys, Function.update_self], absent, ?_⟩
  show Inverse (keyOf (s.entries.set i entry)) fun k' => (s.table.insert key i).lookup k'
  rw [keys, lookup_insert_eq]
  exact Inverse.link allocated.covers allocated.dead absent

lemma Allocated.filed (allocated : Allocated s i) (absent : s.table.lookup key = none)
    (live : entry.occupied = true) (is_key : entry.key = key) (pages : List AtlasPage)
    (tick : UInt64) :
    Filed { s with entries := s.entries.set i entry, table := s.table.insert key i, pages
                   tick } := by
  have keys : keyOf (s.entries.set i entry) = Function.update (keyOf s.entries) i (some key) := by
    rw [keyOf_eq, liveField_set allocated.lt, if_pos live, is_key]
  refine ⟨(allocated.inserting absent live is_key).covers, fun j mem => ?_, allocated.distinct⟩
  have ne : j ≠ i := by
    rintro rfl
    exact allocated.taken mem
  show j < (s.entries.set i entry).length ∧ keyOf (s.entries.set i entry) j = none
  rw [List.length_set, keys, Function.update_of_ne ne]
  exact allocated.free j mem

lemma mapIndex_insert {entries : List GlyphEntry} (lt : i < entries.length) (map : GlyphMap) :
    mapIndex.insert (entries.set i entry) map i = some (map.insert entry.key i) := by
  rw [mapIndex]
  simp only [List.getElem?_set_self lt, Option.map_some]

lemma Sound.place_empty (sound : Sound s) (absent : s.table.lookup key = none)
    (ended : placeEmpty mapIndex s key = some (s', found)) : Sound s' := by
  have allocated := sound.alloc
  have table : (allocEntry s).1.table = s.table := by
    rw [allocEntry]
    split <;> rfl
  cases alloc : allocEntry s with
  | mk s₁ i =>
    rw [alloc] at allocated table
    rw [placeEmpty, alloc] at ended
    dsimp only at ended allocated table
    obtain ⟨map, inserted, ended⟩ := Option.bind_eq_some_iff.mp ended
    rw [mapIndex_insert allocated.lt] at inserted
    cases inserted
    cases ended
    rw [← table] at absent
    refine ⟨allocated.filed absent rfl rfl s₁.pages _, allocated.tidy, ?_⟩
    refine allocated.named.congr (fun j => congrFun (?_ : _ = placeOf s₁.entries) j) fun _ => rfl
    show placeOf (s₁.entries.set i _) = placeOf s₁.entries
    rw [placeOf, liveField_set allocated.lt]
    exact update_dead (placeOf_of_dead allocated.dead)

lemma Allocated.place_glyph (allocated : Allocated s i) (absent : s.table.lookup key = none)
    (ended : placeGlyph mapIndex s key i p = some (s', found)) : Sound s' := by
  obtain ⟨page, at_p, ended⟩ := Option.bind_eq_some_iff.mp ended
  split at ended
  next => cases ended
  next slot rest free =>
    obtain ⟨map, inserted, ended⟩ := Option.bind_eq_some_iff.mp ended
    rw [mapIndex_insert allocated.lt] at inserted
    cases inserted
    cases ended
    have tidy := allocated.tidy page (List.mem_of_getElem? at_p)
    have empty := (tidy.free slot).mp (by rw [free]; exact List.mem_cons_self)
    have lt : slot < page.slotEntries.length := (List.getElem?_eq_some_iff.mp empty).1
    refine ⟨allocated.filed absent rfl rfl _ _, forall_mem_set allocated.tidy (tidy.take free), ?_⟩
    show Inverse (placeOf (s.entries.set i _)) (slotAt (s.pages.set p _))
    rw [slotAt_write at_p lt rfl, placeOf, liveField_set allocated.lt]
    refine Inverse.link allocated.named (placeOf_of_dead allocated.dead) ?_
    rw [slotAt, at_p, Option.bind_some, empty]
    rfl

end Place

section Calls

lemma Sound.find (sound : Sound s) (ended : atlasFindGlyph mapIndex s key = some (s', found)) :
    Sound s' ∧ s'.table = s.table ∧ found = s.table.lookup key := by
  rw [atlasFindGlyph] at ended
  obtain ⟨looked, is_looked, ended⟩ := Option.bind_eq_some_iff.mp ended
  cases is_looked
  split at ended
  next absent =>
    cases ended
    exact ⟨sound, rfl, absent.symm⟩
  next i present =>
    obtain ⟨entry, here, ended⟩ := Option.bind_eq_some_iff.mp ended
    have keys : keyOf (s.entries.set i { entry with lastUsed := s.tick + 1 }) = keyOf s.entries :=
      liveField_touch here rfl
    have places : placeOf (s.entries.set i { entry with lastUsed := s.tick + 1 })
        = placeOf s.entries := liveField_touch here rfl
    have filed : ∀ (pages : List AtlasPage) (tick : UInt64),
        Filed { s with entries := s.entries.set i { entry with lastUsed := s.tick + 1 }, pages
                       tick } := by
      intro pages tick
      refine ⟨sound.covers.congr (fun j => congrFun keys j) fun _ => rfl, fun j mem => ?_,
        sound.distinct⟩
      show j < (s.entries.set i _).length ∧ keyOf (s.entries.set i _) j = none
      rw [List.length_set, keys]
      exact sound.free j mem
    split at ended
    next =>
      cases ended
      exact ⟨⟨filed _ _, sound.tidy, sound.named.congr (fun j => congrFun places j) fun _ => rfl⟩,
        rfl, present.symm⟩
    next place _ =>
      obtain ⟨page, at_page, ended⟩ := Option.bind_eq_some_iff.mp ended
      cases ended
      have tidy := sound.tidy page (List.mem_of_getElem? at_page)
      refine ⟨⟨filed _ _, forall_mem_set sound.tidy ⟨tidy.size, tidy.distinct, tidy.free⟩, ?_⟩,
        rfl, present.symm⟩
      exact sound.named.congr (fun j => congrFun places j)
        fun place' => congrFun (slotAt_keep at_page (by rfl)) place'

lemma Sound.acquire {face : Option Face} (sound : Sound s)
    (ended : atlasAcquireGlyph mapIndex s key face = some (s', found)) : Sound s' := by
  obtain ⟨⟨s₁, found₁⟩, find, ended⟩ := Option.bind_eq_some_iff.mp ended
  obtain ⟨sound₁, table, rfl⟩ := sound.find find
  dsimp only at ended
  split at ended
  next i present =>
    cases ended
    exact sound₁
  next absent =>
    rw [← table] at absent
    split at ended
    · cases ended
      exact sound₁
    · exact sound₁.place_empty absent ended
    · have allocated := sound₁.alloc
      have same : (allocEntry s₁).1.table = s₁.table := by
        rw [allocEntry]
        split <;> rfl
      cases alloc : allocEntry s₁ with
      | mk s₂ i =>
        rw [alloc] at allocated same ended
        dsimp only at allocated same ended
        rw [← same] at absent
        obtain ⟨⟨s₃, page⟩, paged, ended⟩ := Option.bind_eq_some_iff.mp ended
        obtain ⟨allocated', kept⟩ := allocated.page paged
        dsimp only at ended
        split at ended
        · cases ended
          exact allocated'.free_entry
        · exact allocated'.place_glyph (kept key absent) ended

lemma Sound.purge_entry {font : Handle} (sound : Sound s)
    (ended : purgeEntry mapIndex font s i = some s') : Sound s' := by
  obtain ⟨entry, here, ended⟩ := Option.bind_eq_some_iff.mp ended
  split at ended
  next =>
    cases ended
    exact sound
  next stays =>
    have live : entry.occupied = true := by
      cases live : entry.occupied with
      | true => rfl
      | false => simp [live] at stays
    have is_key : keyOf s.entries i = some entry.key := keyOf_eq_some.mpr ⟨entry, here, live, rfl⟩
    have lt := keyOf_lt is_key
    have placed := placeOf_of_live here live
    have places : placeOf (s.entries.set i {}) = Function.update (placeOf s.entries) i none :=
      liveField_clear lt
    obtain ⟨map, removed, ended⟩ := Option.bind_eq_some_iff.mp ended
    cases removed
    split at ended
    next nowhere =>
      cases ended
      refine ⟨sound.toFiled.drop is_key s.pages, sound.tidy, ?_⟩
      show Inverse (placeOf (s.entries.set i {})) (slotAt s.pages)
      rw [places, update_dead (placed.trans nowhere)]
      exact sound.named
    next place somewhere =>
      obtain ⟨page, at_page, ended⟩ := Option.bind_eq_some_iff.mp ended
      cases ended
      have linked : placeOf s.entries i = some place := placed.trans somewhere
      have held : page.slotEntries[place.slot]? = some (some i) := by
        obtain ⟨page', at_page', held⟩ := slotAt_eq_some.mp ((sound.named i place).mp linked)
        rw [at_page] at at_page'
        cases at_page'
        exact held
      have tidy := sound.tidy page (List.mem_of_getElem? at_page)
      refine ⟨sound.toFiled.drop is_key _, forall_mem_set sound.tidy (tidy.give held), ?_⟩
      show Inverse (placeOf (s.entries.set i {})) (slotAt (s.pages.set place.page _))
      rw [places, slotAt_write at_page (List.getElem?_eq_some_iff.mp held).1 rfl]
      exact sound.named.unlink linked

lemma Sound.purge {font : Handle} (sound : Sound s)
    (ended : atlasPurgeFont mapIndex s font = some s') : Sound s' :=
  run_invariant (fun _ _ _ kept stepped => kept.purge_entry stepped) sound ended

lemma Sound.empty (desc : PluginDesc) (tick : UInt64) :
    Sound { desc, table := mapIndex.clear, tick } := by
  refine ⟨⟨fun i k => ?_, nofun, List.nodup_nil⟩, nofun, fun i place => ?_⟩
  · exact ⟨nofun, fun found => nomatch (AList.lookup_empty k).symm.trans found⟩
  · exact ⟨nofun, nofun⟩

/-- **Step lemma.** Every call keeps the atlas in order. -/
theorem Sound.step {answers answers' : List (Option ℕ)} {a : FontAction} (sound : Sound s)
    (stepped : FontState.step mapIndex (s, answers) a = some (s', answers')) : Sound s' := by
  cases a with
  | find key =>
    obtain ⟨⟨s₁, found⟩, ended, out⟩ := Option.map_eq_some_iff.mp stepped
    cases out
    exact (sound.find ended).1
  | acquire key face =>
    obtain ⟨⟨s₁, found⟩, ended, out⟩ := Option.map_eq_some_iff.mp stepped
    cases out
    exact sound.acquire ended
  | purge font =>
    obtain ⟨s₁, ended, out⟩ := Option.map_eq_some_iff.mp stepped
    cases out
    exact sound.purge ended
  | shutdown =>
    cases stepped
    exact Sound.empty _ _

end Calls

end PulseEngine.Font
