import Mathlib.Logic.Function.Basic
import PulseEngine.Datalist.Node

/-!
# The keys of a map form

`set_keyvalue` of `datalist.cpp` and the loop that calls it. The bracketed form
(`parse_bracket_map`) and the indented form (`parse_section_map`) differ in the tokens around their
items and not in what they do with them: each item is a key and a value that is parsed to a node, and the
two are handed to `set_keyvalue`. How a value is parsed is a parameter; it may make nodes and,
through tags, return or change nodes that are there. Allocations succeed.
-/

namespace PulseEngine.Datalist

variable {δ : Type}

/-- The error of `set_keyvalue`. -/
structure MultiKey where
  key : Text
  deriving DecidableEq, Repr

def MultiKey.text (e : MultiKey) : String :=
  "Multi-key (" ++ String.ofList e.key ++ ") should be a table"

def modifyNode (doc : Document δ) (n : NodeId) (f : Node δ → Node δ) : Document δ :=
  Function.update doc n (f (doc n))

def removeEntry (key : Text) (n : Node δ) : Node δ :=
  let entries := n.entries.eraseP fun entry => entry.1 = key
  { n with
    entries := entries
    type := if entries = [] ∧ n.type = .map then if n.items = [] then .list else .mixed else n.type }

def addEntry (key : Text) (v : NodeId) (n : Node δ) : Node δ :=
  { n with
    entries := n.entries ++ [(key, v)]
    type := if n.type = .list then if n.items = [] then .map else .mixed else n.type }

def addItem (v : NodeId) (n : Node δ) : Node δ :=
  { n with items := n.items ++ [v], type := if n.type = .map then .mixed else n.type }

def setKeyvalue (doc : Document δ) (n : NodeId) (key : Text) (v : NodeId) :
    Except MultiKey (Document δ) :=
  if (doc v).type = .nil then
    match value doc (some n) key with
    | none => .ok doc
    | some _ => .ok (modifyNode doc n (removeEntry key))
  else
    match value doc (some n) key with
    | none => .ok (modifyNode doc n (addEntry key v))
    | some old =>
      if old = v then .ok doc
      else if isContainer (doc old) then .ok (modifyNode doc old (addItem v))
      else .error ⟨key⟩

structure MapItem (δ : Type) where
  key : Text
  parse : Document δ → NodeId × Document δ

/-- The loop of `parse_bracket_map` and `parse_section_map`. -/
def parseMap (n : NodeId) : List (MapItem δ) → Document δ → Except MultiKey (Document δ)
  | [], doc => .ok doc
  | item :: items, doc =>
    match item.parse doc with
    | (v, doc) =>
      match setKeyvalue doc n item.key v with
      | .ok doc => parseMap n items doc
      | .error e => .error e

/-- The values of a key that are read, in order, each with its node at that time. A node that the
key has already is no other value. -/
def occurrences (n : NodeId) (key : Text) :
    List (MapItem δ) → Document δ → List (NodeId × Node δ)
  | [], _ => []
  | item :: items, doc =>
    match item.parse doc with
    | (v, doc) =>
      let rest :=
        match setKeyvalue doc n item.key v with
        | .ok doc => occurrences n key items doc
        | .error _ => []
      if item.key = key ∧ value doc (some n) key ≠ some v then (v, doc v) :: rest else rest

section SetKeyvalue

variable {doc doc' : Document δ} {n v c : NodeId} {key key' : Text}

@[simp]
lemma modifyNode_self (doc : Document δ) (n : NodeId) (f : Node δ → Node δ) :
    modifyNode doc n f n = f (doc n) := Function.update_self ..

lemma modifyNode_of_ne (doc : Document δ) {n m : NodeId} (h : m ≠ n) (f : Node δ → Node δ) :
    modifyNode doc n f m = doc m := Function.update_of_ne h ..

lemma value_congr (h : (doc' n).entries = (doc n).entries) (key : Text) :
    value doc' (some n) key = value doc (some n) key := by
  show ((doc' n).entries.find? _).map _ = ((doc n).entries.find? _).map _
  rw [h]

lemma value_removeEntry_of_ne (h : key' ≠ key) :
    value (modifyNode doc n (removeEntry key')) (some n) key = value doc (some n) key := by
  show ((modifyNode doc n (removeEntry key') n).entries.find? _).map _ =
    ((doc n).entries.find? _).map _
  rw [modifyNode_self]
  show (((doc n).entries.eraseP _).find? _).map _ = _
  congr 1
  induction (doc n).entries with
  | nil => rfl
  | cons entry entries ih =>
    by_cases he : entry.1 = key'
    · have hk : ¬ entry.1 = key := fun hk => h (he.symm.trans hk)
      rw [List.eraseP_cons_of_pos (by simpa using he), List.find?_cons_of_neg (by simpa using hk)]
    · rw [List.eraseP_cons_of_neg (by simpa using he), List.find?_cons, List.find?_cons, ih]

lemma value_addEntry_of_ne (h : key' ≠ key) :
    value (modifyNode doc n (addEntry key' v)) (some n) key = value doc (some n) key := by
  show ((modifyNode doc n (addEntry key' v) n).entries.find? _).map _ =
    ((doc n).entries.find? _).map _
  rw [modifyNode_self]
  show (((doc n).entries ++ [(key', v)]).find? _).map _ = _
  rw [List.find?_append]
  cases (doc n).entries.find? _ with
  | none => simp [h]
  | some entry => rfl

lemma value_addEntry (absent : value doc (some n) key = none) :
    value (modifyNode doc n (addEntry key v)) (some n) key = some v := by
  have absent : (doc n).entries.find? (fun entry => entry.1 = key) = none :=
    Option.map_eq_none_iff.mp absent
  show ((modifyNode doc n (addEntry key v) n).entries.find? _).map _ = _
  rw [modifyNode_self]
  show (((doc n).entries ++ [(key, v)]).find? _).map _ = _
  rw [List.find?_append, absent]
  simp

lemma value_addItem (m : NodeId) :
    value (modifyNode doc m (addItem v)) (some n) key = value doc (some n) key := by
  apply value_congr
  by_cases h : n = m
  · subst h
    rw [modifyNode_self]
    rfl
  · rw [modifyNode_of_ne doc h]

/-- What `set_keyvalue` does, case by case. -/
inductive KeySet (doc : Document δ) (n : NodeId) (key : Text) (v : NodeId) :
    Except MultiKey (Document δ) → Prop where
  | skipped (isNil : (doc v).type = .nil) (absent : value doc (some n) key = none) :
    KeySet doc n key v (.ok doc)
  | removed {old : NodeId} (isNil : (doc v).type = .nil)
      (present : value doc (some n) key = some old) :
    KeySet doc n key v (.ok (modifyNode doc n (removeEntry key)))
  | added (notNil : (doc v).type ≠ .nil) (absent : value doc (some n) key = none) :
    KeySet doc n key v (.ok (modifyNode doc n (addEntry key v)))
  | same (notNil : (doc v).type ≠ .nil) (present : value doc (some n) key = some v) :
    KeySet doc n key v (.ok doc)
  | appended {old : NodeId} (notNil : (doc v).type ≠ .nil)
      (present : value doc (some n) key = some old) (other : old ≠ v)
      (container : isContainer (doc old) = true) :
    KeySet doc n key v (.ok (modifyNode doc old (addItem v)))
  | refused {old : NodeId} (notNil : (doc v).type ≠ .nil)
      (present : value doc (some n) key = some old) (other : old ≠ v)
      (scalar : isContainer (doc old) = false) :
    KeySet doc n key v (.error ⟨key⟩)

lemma setKeyvalue_spec (doc : Document δ) (n : NodeId) (key : Text) (v : NodeId) :
    KeySet doc n key v (setKeyvalue doc n key v) := by
  unfold setKeyvalue
  split
  · rename_i isNil
    cases present : value doc (some n) key with
    | none => exact .skipped isNil present
    | some old => exact .removed isNil present
  · rename_i notNil
    cases present : value doc (some n) key with
    | none => exact .added notNil present
    | some old =>
      show KeySet doc n key v (if old = v then _ else _)
      split
      · rename_i same
        subst same
        exact .same notNil present
      · rename_i other
        split
        · rename_i container
          exact .appended notNil present other container
        · rename_i scalar
          exact .refused notNil present other (by simpa using scalar)

lemma setKeyvalue_added (notNil : (doc v).type ≠ .nil) (absent : value doc (some n) key = none) :
    setKeyvalue doc n key v = .ok (modifyNode doc n (addEntry key v)) := by
  rw [setKeyvalue, if_neg notNil, absent]

lemma setKeyvalue_same (notNil : (doc v).type ≠ .nil)
    (present : value doc (some n) key = some v) : setKeyvalue doc n key v = .ok doc := by
  rw [setKeyvalue, if_neg notNil, present]
  exact if_pos rfl

lemma setKeyvalue_appended (notNil : (doc v).type ≠ .nil)
    (present : value doc (some n) key = some c) (other : c ≠ v)
    (container : isContainer (doc c) = true) :
    setKeyvalue doc n key v = .ok (modifyNode doc c (addItem v)) := by
  rw [setKeyvalue, if_neg notNil, present]
  exact (if_neg other).trans (if_pos container)

lemma setKeyvalue_refused (notNil : (doc v).type ≠ .nil)
    (present : value doc (some n) key = some c) (other : c ≠ v)
    (scalar : isContainer (doc c) = false) : setKeyvalue doc n key v = .error ⟨key⟩ := by
  rw [setKeyvalue, if_neg notNil, present]
  exact (if_neg other).trans (if_neg (by simp [scalar]))

lemma setKeyvalue_value_of_ne (h : key' ≠ key) (e : setKeyvalue doc n key' v = .ok doc') :
    value doc' (some n) key = value doc (some n) key := by
  have spec := setKeyvalue_spec doc n key' v
  rw [e] at spec
  cases spec with
  | skipped _ _ => rfl
  | removed _ _ => exact value_removeEntry_of_ne h
  | added _ _ => exact value_addEntry_of_ne h
  | same _ _ => rfl
  | appended _ _ _ _ => exact value_addItem _

lemma container_addItem {node : Node δ} (h : isContainer node = true) :
    isContainer (addItem v node) = true := by
  simp only [isContainer, addItem, Bool.or_eq_true, decide_eq_true_eq] at h ⊢
  split <;> simp_all

lemma notNil_of_container {node : Node δ} (h : isContainer node = true) : node.type ≠ .nil := by
  intro e
  simp [isContainer, e] at h

end SetKeyvalue

end PulseEngine.Datalist
