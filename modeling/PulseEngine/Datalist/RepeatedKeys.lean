import PulseEngine.Datalist.KeyValue

/-!
# Keys that are repeated

The values of a repeated key are merged into the node of the first, and a scalar among them is an
error: so says the documentation. `set_keyvalue` looks at the value that is there and not at the one
that comes, and it turns a map into a mixed node but leaves a list a list. So a scalar behind a container
is merged like another container, and a list that comes first takes the others among its own items.
-/

namespace PulseEngine.Datalist

variable {δ : Type} {n c : NodeId} {key : Text}

/-- The node of the first value, when the form ends: mixed, with the entries it came with, and with the
other values as its items. -/
structure Merged (doc : Document δ) (n : NodeId) (key : Text) (first : NodeId × Node δ)
    (others : List (NodeId × Node δ)) : Prop where
  found : value doc (some n) key = some first.1
  mixed : (doc first.1).type = .mixed
  entries : (doc first.1).entries = first.2.entries
  items : (doc first.1).items = others.map (·.1)

/-- What is said of the values of a key that is given two or more: they are merged if they are all
containers, and the text is rejected if one is a scalar. A `nil` is documented as no value. -/
def RepeatedKeyLaw (n : NodeId) (key : Text) (items : List (MapItem δ)) (doc : Document δ) : Prop :=
  ∀ first others, occurrences n key items doc = first :: others → others ≠ [] →
    (∀ v ∈ first :: others, v.2.type ≠ .nil) →
      ((∀ v ∈ first :: others, isContainer v.2) →
        ∃ doc', parseMap n items doc = .ok doc' ∧ Merged doc' n key first others) ∧
      ((∃ v ∈ first :: others, isContainer v.2 = false) →
        parseMap n items doc = .error ⟨key⟩)

/-- When the law holds: a scalar comes first, or a map that has no items of its own and after it
nothing but containers. -/
def FirstDecides (n : NodeId) (key : Text) (items : List (MapItem δ)) (doc : Document δ) : Prop :=
  ∀ first others, occurrences n key items doc = first :: others → others ≠ [] →
    (∀ v ∈ first :: others, v.2.type ≠ .nil) →
      isContainer first.2 = false ∨
        first.2.type ≠ .list ∧ first.2.items = [] ∧ ∀ v ∈ others, isContainer v.2

def Undisturbed (n : NodeId) (key : Text) : List (MapItem δ) → Document δ → Prop
  | [], _ => True
  | item :: items, doc =>
    match item.parse doc with
    | (v, read) =>
      read n = doc n ∧
      (∀ c, value doc (some n) key = some c → read c = doc c) ∧
      (item.key = key → v ≠ n) ∧
      (item.key ≠ key → ∀ c, value read (some n) item.key = some c →
        (read v).type = .nil ∨ c = v ∨
          isContainer (read c) = true ∧ value read (some n) key ≠ some c) ∧
      ∀ doc', setKeyvalue read n item.key v = .ok doc' → Undisturbed n key items doc'

lemma passes {doc read : Document δ} {k : Text} {v : NodeId} (map : read n = doc n)
    (kept : ∀ c, value doc (some n) key = some c → read c = doc c)
    (apart : k ≠ key → ∀ c, value read (some n) k = some c →
      (read v).type = .nil ∨ c = v ∨ isContainer (read c) = true ∧ value read (some n) key ≠ some c)
    (other : ¬(k = key ∧ value read (some n) key ≠ some v))
    (notNil : ∀ c, value doc (some n) key = some c → c ≠ n ∧ (doc c).type ≠ .nil) :
    ∃ doc', setKeyvalue read n k v = .ok doc' ∧
      value doc' (some n) key = value doc (some n) key ∧
      ∀ c, value doc (some n) key = some c → doc' c = doc c := by
  have hvalue : value read (some n) key = value doc (some n) key :=
    value_congr (congrArg Node.entries map) key
  by_cases hk : k = key
  · subst hk
    have present : value read (some n) k = some v := by simpa using other
    have isNot : (read v).type ≠ .nil := by
      have hv := hvalue.symm.trans present
      rw [kept v hv]
      exact (notNil v hv).2
    exact ⟨read, setKeyvalue_same isNot present, hvalue, kept⟩
  · cases e : setKeyvalue read n k v with
    | error e' =>
      have spec := setKeyvalue_spec read n k v
      rw [e] at spec
      cases spec with
      | refused isNot present other scalar =>
        rcases apart hk _ present with isNil | same | ⟨container, _⟩
        · exact absurd isNil isNot
        · exact absurd same other
        · rw [container] at scalar
          cases scalar
    | ok doc' =>
      refine ⟨doc', rfl, (setKeyvalue_value_of_ne hk e).trans hvalue, fun c hc => ?_⟩
      have spec := setKeyvalue_spec read n k v
      rw [e] at spec
      have hn := (notNil c hc).1
      cases spec with
      | skipped _ _ => exact kept c hc
      | removed _ _ => exact (modifyNode_of_ne read hn _).trans (kept c hc)
      | added _ _ => exact (modifyNode_of_ne read hn _).trans (kept c hc)
      | same _ _ => exact kept c hc
      | @appended old isNot present other _ =>
        refine (modifyNode_of_ne read ?_ _).trans (kept c hc)
        rintro rfl
        rcases apart hk _ present with isNil | same | ⟨_, away⟩
        · exact isNot isNil
        · exact other same
        · exact away (hvalue.trans hc)

lemma reaches_first (items : List (MapItem δ)) (doc : Document δ)
    (absent : value doc (some n) key = none) (undisturbed : Undisturbed n key items doc)
    {first : NodeId × Node δ} {others : List (NodeId × Node δ)}
    (values : occurrences n key items doc = first :: others) (notNil : first.2.type ≠ .nil) :
    ∃ items' doc', parseMap n items doc = parseMap n items' doc' ∧
      occurrences n key items' doc' = others ∧ Undisturbed n key items' doc' ∧
      value doc' (some n) key = some first.1 ∧ doc' first.1 = first.2 ∧ first.1 ≠ n := by
  induction items generalizing doc with
  | nil => cases values
  | cons item items ih =>
    obtain ⟨k, parse⟩ := item
    simp only [Undisturbed, occurrences, parseMap] at undisturbed values ⊢
    generalize parse doc = parsed at undisturbed values ⊢
    obtain ⟨v, read⟩ := parsed
    obtain ⟨map, kept, notSelf, apart, next⟩ := undisturbed
    have hvalue : value read (some n) key = none :=
      (value_congr (congrArg Node.entries map) key).trans absent
    by_cases counted : k = key ∧ value read (some n) key ≠ some v
    · rw [if_pos counted, List.cons.injEq] at values
      obtain ⟨rfl, rest⟩ := values
      obtain ⟨rfl, -⟩ := counted
      have e := setKeyvalue_added notNil hvalue
      rw [e] at rest ⊢
      exact ⟨items, _, rfl, rest, next _ e, value_addEntry hvalue,
        modifyNode_of_ne read (notSelf rfl) _, notSelf rfl⟩
    · rw [if_neg counted] at values
      obtain ⟨doc', e, same, -⟩ := passes map kept apart counted
        (fun c hc => by cases absent.symm.trans hc)
      rw [e] at values ⊢
      exact ih doc' (same.trans absent) (next doc' e) values

lemma container_takes (items : List (MapItem δ)) (doc : Document δ)
    (present : value doc (some n) key = some c) (apart : c ≠ n)
    (container : isContainer (doc c) = true) (undisturbed : Undisturbed n key items doc)
    (notNil : ∀ v ∈ occurrences n key items doc, v.2.type ≠ .nil) :
    ∃ doc', parseMap n items doc = .ok doc' ∧ value doc' (some n) key = some c ∧
      doc' c = ((occurrences n key items doc).map (·.1)).foldl (fun node v => addItem v node)
        (doc c) := by
  induction items generalizing doc with
  | nil => exact ⟨doc, rfl, present, rfl⟩
  | cons item items ih =>
    obtain ⟨k, parse⟩ := item
    simp only [Undisturbed, occurrences, parseMap] at undisturbed notNil ⊢
    generalize parse doc = parsed at undisturbed notNil ⊢
    obtain ⟨v, read⟩ := parsed
    obtain ⟨map, kept, notSelf, away, next⟩ := undisturbed
    have hvalue : value read (some n) key = some c :=
      (value_congr (congrArg Node.entries map) key).trans present
    by_cases counted : k = key ∧ value read (some n) key ≠ some v
    · rw [if_pos counted] at notNil ⊢
      obtain ⟨rfl, other⟩ := counted
      have unread : read c = doc c := kept c present
      have e := setKeyvalue_appended (notNil (v, read v) List.mem_cons_self) hvalue
        (fun same => other (hvalue.trans (congrArg some same)))
        (by rw [unread]; exact container)
      rw [e] at notNil ⊢
      have node : modifyNode read c (addItem v) c = addItem v (doc c) := by
        rw [modifyNode_self, unread]
      obtain ⟨doc', parsed, found, last⟩ := ih _ ((value_addItem c).trans hvalue)
        (by rw [node]; exact container_addItem container)
        (next _ e) (fun w hw => notNil w (List.mem_cons_of_mem _ hw))
      refine ⟨doc', parsed, found, last.trans ?_⟩
      rw [node]
      rfl
    · rw [if_neg counted] at notNil ⊢
      obtain ⟨doc', e, same, held⟩ := passes map kept away counted (fun d hd => by
        cases present.symm.trans hd
        exact ⟨apart, notNil_of_container container⟩)
      rw [e] at notNil ⊢
      obtain ⟨last, parsed, found, node⟩ := ih doc' (same.trans present)
        (by rw [held c present]; exact container) (next doc' e) notNil
      exact ⟨last, parsed, found, node.trans (by rw [held c present])⟩

lemma scalar_refuses (items : List (MapItem δ)) (doc : Document δ)
    (present : value doc (some n) key = some c) (apart : c ≠ n)
    (scalar : isContainer (doc c) = false) (isNot : (doc c).type ≠ .nil)
    (undisturbed : Undisturbed n key items doc)
    (notNil : ∀ v ∈ occurrences n key items doc, v.2.type ≠ .nil)
    (more : occurrences n key items doc ≠ []) : parseMap n items doc = .error ⟨key⟩ := by
  induction items generalizing doc with
  | nil => exact absurd rfl more
  | cons item items ih =>
    obtain ⟨k, parse⟩ := item
    simp only [Undisturbed, occurrences, parseMap] at undisturbed notNil more ⊢
    generalize parse doc = parsed at undisturbed notNil more ⊢
    obtain ⟨v, read⟩ := parsed
    obtain ⟨map, kept, notSelf, away, next⟩ := undisturbed
    have hvalue : value read (some n) key = some c :=
      (value_congr (congrArg Node.entries map) key).trans present
    by_cases counted : k = key ∧ value read (some n) key ≠ some v
    · rw [if_pos counted] at notNil
      obtain ⟨rfl, other⟩ := counted
      have unread : read c = doc c := kept c present
      rw [setKeyvalue_refused (notNil (v, read v) List.mem_cons_self) hvalue
        (fun same => other (hvalue.trans (congrArg some same)))
        (by rw [unread]; exact scalar)]
    · rw [if_neg counted] at notNil more
      obtain ⟨doc', e, same, held⟩ := passes map kept away counted (fun d hd => by
        cases present.symm.trans hd
        exact ⟨apart, isNot⟩)
      rw [e] at notNil more ⊢
      exact ih doc' (same.trans present) (by rw [held c present]; exact scalar)
        (by rw [held c present]; exact isNot) (next doc' e) notNil more

lemma items_foldl_addItem (vs : List NodeId) (node : Node δ) :
    (vs.foldl (fun node v => addItem v node) node).items = node.items ++ vs := by
  induction vs generalizing node with
  | nil => exact (List.append_nil _).symm
  | cons v vs ih => exact (ih _).trans (List.append_assoc ..)

lemma entries_foldl_addItem (vs : List NodeId) (node : Node δ) :
    (vs.foldl (fun node v => addItem v node) node).entries = node.entries := by
  induction vs generalizing node with
  | nil => rfl
  | cons v vs ih => exact ih _

lemma type_foldl_addItem (vs : List NodeId) (node : Node δ)
    (h : node.type = .list ∨ node.type = .mixed) :
    (vs.foldl (fun node v => addItem v node) node).type = node.type := by
  induction vs generalizing node with
  | nil => rfl
  | cons v vs ih =>
    have same : (addItem v node).type = node.type := if_neg (by rcases h with h | h <;> simp [h])
    exact (ih _ (by rw [same]; exact h)).trans same

lemma mixed_foldl_addItem {vs : List NodeId} {node : Node δ} (container : isContainer node = true)
    (more : vs ≠ []) :
    (vs.foldl (fun node v => addItem v node) node).type = .mixed ↔ node.type ≠ .list := by
  cases vs with
  | nil => exact absurd rfl more
  | cons v vs =>
    have cases : node.type = .list ∨ node.type = .map ∨ node.type = .mixed := by
      simpa [isContainer, or_assoc] using container
    rcases cases with list | map | mixed
    · have same : (addItem v node).type = .list := (if_neg (by simp [list])).trans list
      rw [List.foldl_cons, type_foldl_addItem vs _ (.inl same), same]
      simp [list]
    · have same : (addItem v node).type = .mixed := if_pos map
      rw [List.foldl_cons, type_foldl_addItem vs _ (.inr same), same]
      simp [map]
    · have same : (addItem v node).type = .mixed := (if_neg (by simp [mixed])).trans mixed
      rw [List.foldl_cons, type_foldl_addItem vs _ (.inr same), same]
      simp [mixed]

/-- The law of repeated keys holds exactly where the first value decides: when it is a scalar, or a map
without items that is followed by containers alone. -/
theorem repeatedKeys_iff_firstDecides (items : List (MapItem δ)) (doc : Document δ)
    (fresh : (doc n).entries = []) (undisturbed : Undisturbed n key items doc) :
    RepeatedKeyLaw n key items doc ↔ FirstDecides n key items doc := by
  have absent : value doc (some n) key = none := by
    show ((doc n).entries.find? _).map _ = none
    rw [fresh]
    rfl
  refine forall₂_congr fun first others => imp_congr_right fun values => imp_congr_right fun more =>
    forall_congr' fun written => ?_
  obtain ⟨rest, doc₁, parsed, hothers, undisturbed, present, node, apart⟩ :=
    reaches_first items doc absent undisturbed values (written first List.mem_cons_self)
  have notNil : ∀ v ∈ occurrences n key rest doc₁, v.2.type ≠ .nil := fun v hv =>
    written v (List.mem_cons_of_mem _ (hothers ▸ hv))
  rw [parsed]
  cases container : isContainer first.2 with
  | false =>
    have refused := scalar_refuses rest doc₁ present apart (by rw [node]; exact container)
      (by rw [node]; exact written first List.mem_cons_self) undisturbed notNil
      (by rw [hothers]; exact more)
    refine iff_of_true ⟨fun all => ?_, fun _ => refused⟩ (.inl rfl)
    cases container.symm.trans (all first List.mem_cons_self)
  | true =>
    obtain ⟨doc', accepted, found, last⟩ := container_takes rest doc₁ present apart
      (by rw [node]; exact container) undisturbed notNil
    rw [hothers, node] at last
    have hmore : others.map (·.1) ≠ [] := by simpa using more
    constructor
    · rintro ⟨merges, rejects⟩
      have all : ∀ v ∈ first :: others, isContainer v.2 = true := by
        intro v hv
        cases scalar : isContainer v.2 with
        | true => rfl
        | false => cases (rejects ⟨v, hv, scalar⟩).symm.trans accepted
      obtain ⟨doc'', e, merged⟩ := merges all
      cases e.symm.trans accepted
      have mixed := merged.mixed
      have hitems := merged.items
      rw [last] at mixed hitems
      rw [items_foldl_addItem] at hitems
      exact .inr ⟨(mixed_foldl_addItem container hmore).mp mixed, by simpa using hitems,
        fun v hv => all v (List.mem_cons_of_mem _ hv)⟩
    · rintro (scalar | ⟨notList, noItems, all⟩)
      · cases scalar
      · refine ⟨fun _ => ⟨doc', accepted, found, ?_, ?_, ?_⟩, ?_⟩
        · rw [last]
          exact (mixed_foldl_addItem container hmore).mpr notList
        · rw [last, entries_foldl_addItem]
        · rw [last, items_foldl_addItem, noItems, List.nil_append]
        · rintro ⟨v, hv, scalar⟩
          have : isContainer v.2 = true := by
            rcases List.mem_cons.mp hv with rfl | hv
            · exact container
            · exact all v hv
          cases scalar.symm.trans this

def MapItem.reads (key : Text) (v : NodeId) (node : Node δ) : MapItem δ :=
  ⟨key, fun doc => (v, Function.update doc v node)⟩

def oneEntry : Node Int := { Node.empty .map with entries := [(['a'], 9)] }

lemma undisturbed_reads (node : Node Int) :
    Undisturbed 0 ['m'] [.reads ['m'] 1 oneEntry, .reads ['m'] 2 node]
      fun _ => Node.empty .list := by
  refine ⟨rfl, fun c hc => ?_, fun _ => by decide, fun h => absurd rfl h, fun doc' e => ?_⟩
  · cases hc
  · cases e
    refine ⟨rfl, fun c hc => ?_, fun _ => Nat.succ_ne_zero 1, fun h => absurd rfl h,
      fun _ _ => trivial⟩
    cases hc
    rfl

/-- In `m : { a : 1 } m : { a : 1 }` the first value is a map, and the second is its item. -/
theorem twoMaps_merged :
    RepeatedKeyLaw 0 ['m'] [.reads ['m'] 1 oneEntry, .reads ['m'] 2 oneEntry]
      fun _ => Node.empty .list := by
  refine (repeatedKeys_iff_firstDecides _ _ rfl (undisturbed_reads oneEntry)).mpr ?_
  intro first others values _ _
  cases values
  exact .inr ⟨by decide, rfl, fun v hv => by cases List.mem_singleton.mp hv; rfl⟩

/-- The text `m : { a : 1 } m : 2` is not rejected. -/
theorem scalar_after_map_accepted :
    ¬ ∀ (items : List (MapItem Int)) (doc : Document Int), (doc 0).entries = [] →
      Undisturbed 0 ['m'] items doc → RepeatedKeyLaw 0 ['m'] items doc := by
  intro law
  let two : Node Int := { Node.empty .int with i := 2 }
  have fails := law [.reads ['m'] 1 oneEntry, .reads ['m'] 2 two] (fun _ => Node.empty .list) rfl
    (undisturbed_reads two) (1, oneEntry) [(2, two)] rfl (by simp)
    (by simp [oneEntry, two, Node.empty])
  cases fails.2 ⟨(2, two), by simp, rfl⟩

end PulseEngine.Datalist
