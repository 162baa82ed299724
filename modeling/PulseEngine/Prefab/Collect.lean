import PulseEngine.Prefab.Walk

/-!
# Definitions of a prefab file

The part of `pulse_prefab/src/load_prefab.cpp` that collects the entity definitions of a parsed text:
one prefab, a map of named prefabs, or a list of entries of which one is the root.
-/

namespace PulseEngine.Prefab

open Datalist Library

structure Parsed (δ : Type) where
  doc : Document δ
  root : NodeId
  nodes : Finset NodeId
  root_mem : root ∈ nodes
  entries_mem : ∀ n ∈ nodes, ∀ entry ∈ (doc n).entries, entry.2 ∈ nodes
  items_mem : ∀ n ∈ nodes, ∀ item ∈ (doc n).items, item ∈ nodes

/-- `prefab_definition`; `SIZE_MAX` is `none`. -/
structure Definition where
  name : Text
  node : NodeId
  entity : ℕ
  parent : Option ℕ
  base : Option ℕ
  expanded : Bool

def Definition.ofNode (name : Text) (node : NodeId) : Definition where
  name := name
  node := node
  entity := 0
  parent := none
  base := none
  expanded := false

structure PrefabLibrary where
  definitions : List Definition
  root : Option ℕ
  singleRoot : Bool

def PrefabLibrary.empty : PrefabLibrary := ⟨[], none, false⟩

variable {δ : Type} (doc : Document δ)

def rootSectionIsKnown (key : Text) : Bool :=
  key ∈ ["name", "extends", "components", "tags", "pairs", "children"].map String.toList

def rootHasSection (root : NodeId) : Bool :=
  (doc root).entries.any fun entry => rootSectionIsKnown entry.1

def checkKnownSections (node : NodeId) (what : String) : Load Unit :=
  match (doc node).entries.find? fun entry => ¬ rootSectionIsKnown entry.1 with
  | none => pure ()
  | some entry =>
    failWith ["prefab loader: unknown ".toList, what.toList, " key '".toList, entry.1, "'".toList]

def givenName (node : NodeId) : Option Text :=
  match getString doc (some node) (some "name".toList) none with
  | none => none
  | some name => if name = [] ∨ name.head? = some '#' then none else some name

namespace PrefabLibrary

variable (library : PrefabLibrary)

def nameIsUnique (name : Text) : Bool :=
  library.definitions.all fun definition => definition.name ≠ name

def findByNode (node : NodeId) : Option ℕ :=
  library.definitions.findIdx? fun definition => definition.node = node

def label (index : ℕ) : Text :=
  match library.definitions[index]? with
  | none => []
  | some definition =>
    if definition.name ≠ [] then definition.name else '#' :: (toString index).toList

def push (definition : Definition) : PrefabLibrary :=
  { library with definitions := library.definitions ++ [definition] }

end PrefabLibrary

def collectSinglePrefab (root : NodeId) (library : PrefabLibrary) : Load PrefabLibrary := do
  checkKnownSections doc root "section"
  let library := library.push (.ofNode ((givenName doc root).getD []) root)
  pure { library with root := some 0 }

/-- The loop of `collect_prefab_library` over one entry. -/
def collectEntry (library : PrefabLibrary) (entry : Text × NodeId) : Load PrefabLibrary := do
  let (key, node) := entry
  if key = [] then fail "prefab loader: prefab entry key must be a name"
  else if ¬ nodeIsContainer doc node ∨ (doc node).entries = [] then
    failWith ["prefab loader: prefab entry '".toList, key,
      "' must be an object with at least one section".toList]
  else
    checkKnownSections doc node "prefab"
    if (library.findByNode node).isSome then
      failWith ["prefab loader: prefab entry '".toList, key,
        "' is the same node as an earlier entry".toList]
    else
      let name := (givenName doc node).getD key
      if ¬ library.nameIsUnique name then
        failWith ["prefab loader: duplicate prefab name '".toList, name, "'".toList]
      else pure (library.push (.ofNode name node))

def collectPrefabLibrary (root : NodeId) (library : PrefabLibrary) : Load PrefabLibrary := do
  let library ← (doc root).entries.foldlM (collectEntry doc) library
  pure { library with root := some 0 }

/-- What `mark_child_references` writes: the nodes that were visited, and the definitions that are
referred to. -/
structure Marks where
  visited : List NodeId
  referenced : List Bool

/-- The loop of `mark_child_references` over one child. -/
def markChild (library : PrefabLibrary) (mark : Marks → NodeId → Load Marks) (marks : Marks)
    (child : NodeId) : Load Marks :=
  if ¬ nodeIsContainer doc child then pure marks
  else
    let marks :=
      match library.findByNode child with
      | none => marks
      | some index => { marks with referenced := marks.referenced.set index true }
    mark marks child

def markChildReferences (library : PrefabLibrary) : ℕ → Marks → NodeId → Load Marks
  | 0, _, _ => unended
  | fuel + 1, marks, node =>
    if node ∈ marks.visited then pure marks
    else
      let marks := { marks with visited := marks.visited ++ [node] }
      match sectionOf doc node "children" with
      | none => pure marks
      | some children =>
        if (doc children).entries ≠ [] then
          fail "prefab loader: 'children' must be a list of child entities"
        else (doc children).items.foldlM (markChild doc library (markChildReferences library fuel))
          marks

/-- The loop of `collect_section_list` over one entry. -/
def collectItem (library : PrefabLibrary) (item : NodeId × ℕ) : Load PrefabLibrary := do
  let (node, i) := item
  if ¬ nodeIsContainer doc node ∨ (doc node).entries = [] then
    failWith ["prefab loader: list entry #".toList, (toString i).toList,
      " must be an object with at least one section".toList]
  else
    checkKnownSections doc node "entry"
    if (library.findByNode node).isSome then
      failWith ["prefab loader: list entry #".toList, (toString i).toList,
        " is the same node as an earlier entry".toList]
    else pure (library.push (.ofNode ((givenName doc node).getD []) node))

/-- The loop of `collect_section_list` over the marks: the one definition that is not referred to is
the root. -/
def findRoot (library : PrefabLibrary) (root : Option ℕ) (mark : Bool × ℕ) : Load (Option ℕ) :=
  if mark.1 then pure root
  else
    match root with
    | none => pure (some mark.2)
    | some _ =>
      failWith ["prefab loader: list entry '".toList, library.label mark.2,
        "' is not referenced by any 'children'".toList]

variable (parsed : Parsed δ)

def nodeFuel : ℕ := parsed.nodes.card + 1

def collectSectionList (library : PrefabLibrary) : Load PrefabLibrary := do
  let items := (parsed.doc parsed.root).items
  if items = [] then fail "prefab loader: file declares no prefab"
  else
    let library ← items.zipIdx.foldlM (collectItem parsed.doc) library
    let marks ← library.definitions.foldlM (fun marks definition =>
      markChildReferences parsed.doc library (nodeFuel parsed) marks definition.node)
      ⟨[], library.definitions.map fun _ => false⟩
    let root ← marks.referenced.zipIdx.foldlM (findRoot library) none
    match root with
    | none => fail "prefab loader: list form needs one unreferenced entry as root, found none"
    | some root => pure { library with root := some root, singleRoot := true }

def collectLibrary (library : PrefabLibrary) : Load PrefabLibrary := do
  if ¬ nodeIsContainer parsed.doc parsed.root then
    fail "prefab loader: prefab root is not an object"
  else if (parsed.doc parsed.root).entries = [] then collectSectionList parsed library
  else if rootHasSection parsed.doc parsed.root then
    collectSinglePrefab parsed.doc parsed.root library
  else
    let library ← collectPrefabLibrary parsed.doc parsed.root library
    if library.definitions = [] then fail "prefab loader: file declares no prefab"
    else pure library

end PulseEngine.Prefab
