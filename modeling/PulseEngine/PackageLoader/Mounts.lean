import PulseEngine.PackageLoader.LoadOrder

/-!
# The mounted directories of a load

`locate_packages`, `resolve_package` and `load_packages_impl` in `package_loader.cpp` with the set of mounted
directories. Mounting a directory that is mounted does nothing, so the unmounts that undo the mounts of a
call also take away what was mounted before it. What the files are and what the packages do when they are
registered is the environment's.
-/

namespace PulseEngine.PackageLoader

abbrev Dir := List Char

abbrev Mounts := Finset Dir

/-- Where a directory is mounted: `"/"` or `kManifestPoint`. -/
inductive MountPoint where
  | root
  | manifestPoint
  deriving DecidableEq, Repr

/-- `EPulseVfsFileType`. -/
inductive FileType where
  | regular
  | directory
  | symlink
  | other
  deriving DecidableEq, Repr

/-- What `resolve_package` reads of a `package.json`. -/
structure Manifest where
  name : Option Name
  assets : Bool
  type : Option Name
  scriptFile : Option Name
  dependencies : List (Option Name)

/-- The `package.json` of a directory. -/
inductive ManifestRead where
  | missing
  | invalid
  | parsed (manifest : Manifest)

/-- `ResolvedPackage`, without its library. -/
structure ResolvedPackage where
  manifestName : Name
  packageDir : Dir
  type : Name
  scriptFile : Name
  hasAssets : Bool
  dependencies : List Name

def ResolvedPackage.new : ResolvedPackage := ⟨[], [], "native".toList, [], false, []⟩

structure PendingEntry where
  name : Name
  resolved : ResolvedPackage

/-- What the loader does not decide: whether a directory can be mounted, the files under the mounted
directories, the manifest that is found after a directory was mounted over others, the plugins and the
static packages, and what comes of the registration of the packages in their order. -/
structure Environment where
  windows : Bool
  mountable : MountPoint → Dir → Bool
  stat : Mounts → Name → Option FileType
  manifest : Mounts → Dir → ManifestRead
  hasPlugin : Name → Bool
  isStatic : Name → Bool
  register : List PendingEntry → List ℕ → LoadResult

section Loader

variable (env : Environment)

def mount (point : MountPoint) (dir : Dir) (mounts : Mounts) : Mounts × Bool :=
  if dir ∈ mounts then (mounts, true)
  else if env.mountable point dir then (insert dir mounts, true)
  else (mounts, false)

def unmount (dir : Dir) (mounts : Mounts) : Mounts := mounts.erase dir

def joinPath (a b : List Char) : List Char :=
  match a.getLast? with
  | none => b
  | some last => if last = '/' ∨ last = '\\' then a ++ b else a ++ '/' :: b

structure LocatedPackage where
  hostDir : Dir
  found : Bool
  deriving DecidableEq

/-- The loop of `locate_packages` over one entry, under a mounted root. -/
def locateEntry (mounts : Mounts) (root : Dir) (name : Name) (located : LocatedPackage) : LocatedPackage :=
  if located.found ∨ name = [] then located
  else if env.stat mounts name = some .directory then ⟨joinPath root name, true⟩
  else
    let archive := name ++ ".zip".toList
    if env.stat mounts archive = some .regular then ⟨joinPath root archive, true⟩ else located

def locateIn (names : List Name) (s : Mounts × List LocatedPackage) (root : Dir) :
    Mounts × List LocatedPackage :=
  if root = [] then s
  else
    match mount env .root root s.1 with
    | (mounts, false) => (mounts, s.2)
    | (mounts, true) => (unmount root mounts, List.zipWith (locateEntry env mounts root) names s.2)

def locatePackages (roots : List Dir) (names : List Name) (mounts : Mounts) :
    Mounts × List LocatedPackage :=
  roots.foldl (locateIn env names) (mounts, names.map fun _ => ⟨[], false⟩)

def textOr (text : Option (List Char)) (other : List Char) : List Char :=
  if text.getD [] = [] then other else text.getD []

def resolvePackage (name : Name) (hostDir : Dir) (mounts : Mounts) : Mounts × Bool × ResolvedPackage :=
  if name = [] then (mounts, false, .new)
  else
    let out := { ResolvedPackage.new with packageDir := hostDir }
    match mount env .manifestPoint hostDir mounts with
    | (mounts₁, false) => (mounts₁, false, out)
    | (mounts₁, true) =>
      let mounts₂ := unmount hostDir mounts₁
      match env.manifest mounts hostDir with
      | .missing => (mounts₂, false, out)
      | .invalid => (unmount hostDir mounts₂, false, out)
      | .parsed manifest =>
        match mount env .root hostDir mounts₂ with
        | (mounts₃, false) => (mounts₃, false, out)
        | (mounts₃, true) =>
          (mounts₃, true,
            { manifestName := textOr manifest.name name
              packageDir := hostDir
              type := textOr manifest.type "native".toList
              scriptFile := manifest.scriptFile.getD []
              hasAssets := manifest.assets
              dependencies := manifest.dependencies.filterMap fun d => d.filter (· ≠ []) })

/-- The locals of `load_packages_impl` while the packages are resolved. -/
structure Loading where
  mounts : Mounts
  mountedDirs : List (Dir × Bool)
  pending : List PendingEntry

def Loading.fail (s : Loading) : Mounts := s.mountedDirs.foldl (fun mounts d => unmount d.1 mounts) s.mounts

def Loading.unmountOthers (s : Loading) : Mounts :=
  s.mountedDirs.foldl (fun mounts d => if d.2 then mounts else unmount d.1 mounts) s.mounts

def attempt (s : Loading) (name : Name) (located : LocatedPackage) : Loading × Bool × ResolvedPackage :=
  if located.found then
    match resolvePackage env name located.hostDir s.mounts with
    | (mounts, false, out) => ({ s with mounts := mounts }, false, out)
    | (mounts, true, out) =>
      ({ s with
        mounts := mounts, mountedDirs := s.mountedDirs ++ [(out.packageDir, out.hasAssets)] }, true, out)
  else (s, false, .new)

/-- The loop of `load_packages_impl` over one entry; with the error that it fails with. -/
def resolveEntry (s : Loading) (entry : Name × LocatedPackage) : Loading × Option LoadResult :=
  let (name, located) := entry
  if name = [] then (s, some .invalidArgument)
  else
    let (s, resolved, out) := attempt env s name located
    if ¬ resolved ∧ ¬ env.isStatic name then (s, some .libraryNotFound)
    else if out.type ≠ "native".toList ∧ out.scriptFile = [] then (s, some .invalidArgument)
    else if env.hasPlugin name ∨ out.manifestName ≠ [] ∧ env.hasPlugin out.manifestName then
      (s, some .duplicatePackage)
    else ({ s with pending := s.pending ++ [⟨name, out⟩] }, none)

/-- The loop of `load_packages_impl` over the entries. -/
def resolveEntries : Loading → List (Name × LocatedPackage) → Loading × Option LoadResult
  | s, [] => (s, none)
  | s, entry :: entries =>
    match resolveEntry env s entry with
    | (s, none) => resolveEntries s entries
    | (s, some result) => (s, some result)

/-- The arguments of a call; `none` is a null pointer that comes with a count. -/
structure LoadCall where
  app : Bool
  searchPaths : Option (List (Option Dir))
  entries : Option (List Name)

def LoadCall.roots (call : LoadCall) : List Dir := (call.searchPaths.getD []).filterMap id

def LoadCall.names (call : LoadCall) : List Name := call.entries.getD []

/-- What a call leaves: the mounted directories, its result, and the packages that it has taken in. -/
structure Loaded where
  mounts : Mounts
  result : LoadResult
  packages : List PendingEntry

/-- `load_packages_impl` after the packages were resolved. -/
def finishLoading (s : Loading) : Option Loaded :=
  (orderPackages env.windows env.hasPlugin
      (s.pending.map fun p => ⟨p.name, p.resolved.manifestName, p.resolved.dependencies⟩)).map fun
    | .error result => ⟨s.fail, result, s.pending⟩
    | .ok order =>
      let result := env.register s.pending order
      ⟨if result = .ok then s.unmountOthers else s.fail, result, s.pending⟩

def loadPackages (call : LoadCall) (mounts : Mounts) : Option Loaded :=
  if call.app = false ∨ call.entries = none then some ⟨mounts, .invalidArgument, []⟩
  else if call.searchPaths = none then some ⟨mounts, .invalidArgument, []⟩
  else if call.names = [] then some ⟨mounts, .ok, []⟩
  else if ¬ env.hasPlugin "pulse_vfs".toList then some ⟨mounts, .invalidState, []⟩
  else
    let (mounts, located) := locatePackages env call.roots call.names mounts
    match resolveEntries env ⟨mounts, [], []⟩ (call.names.zip located) with
    | (s, some result) => some ⟨s.fail, result, s.pending⟩
    | (s, none) => finishLoading env s

end Loader

def dirsOf (located : List LocatedPackage) : List Dir :=
  (located.filter LocatedPackage.found).map LocatedPackage.hostDir

def assetDirs (packages : List PendingEntry) : Finset Dir :=
  ((packages.filter fun p => p.resolved.hasAssets).map fun p => p.resolved.packageDir).toFinset

def ResolvedPackage.Resolved (r : ResolvedPackage) : Prop := r.manifestName ≠ []

def tries (located : List LocatedPackage) (packages : List PendingEntry) (dir : Dir) :
    List ResolvedPackage :=
  ((located.zip packages).filter fun p => p.1.found ∧ p.1.hostDir = dir).map fun p => p.2.resolved

def KeepsAssets (located : List LocatedPackage) (packages : List PendingEntry) (dir : Dir) : Prop :=
  (∃ r ∈ (tries located packages dir).getLast?, r.Resolved) ∧
    ∀ r ∈ tries located packages dir, r.Resolved → r.hasAssets = true

def LoadCall.IsRoot (call : LoadCall) (dir : Dir) : Prop := dir ∈ call.roots ∧ dir ≠ []

def LoadCall.Starts (call : LoadCall) (env : Environment) : Prop :=
  call.app = true ∧ call.entries ≠ none ∧ call.searchPaths ≠ none ∧ call.names ≠ [] ∧
    env.hasPlugin "pulse_vfs".toList = true

/-- The mounted directories are what they should be: those from before after an error, and those and the
asset directories of the packages after a success. -/
structure MountsRight (before : Mounts) (l : Loaded) : Prop where
  error : l.result ≠ .ok → l.mounts = before
  success : l.result = .ok → l.mounts = before ∪ assetDirs l.packages

def Untouched (env : Environment) (call : LoadCall) (before : Mounts) (l : Loaded) : Prop :=
  ∀ dir ∈ before, ¬ call.IsRoot dir ∧
    dir ∉ dirsOf ((locatePackages env call.roots call.names before).2.take (l.packages.length + 1))

/-- Every search root that was mounted before and every directory of a package that was mounted before or has
assets is kept as the directory of a package with assets. -/
def Retained (env : Environment) (call : LoadCall) (before : Mounts) (l : Loaded) : Prop :=
  ∀ dir ∈ before ∪ assetDirs l.packages,
    call.IsRoot dir ∨ dir ∈ dirsOf (locatePackages env call.roots call.names before).2 →
      KeepsAssets (locatePackages env call.roots call.names before).2 l.packages dir

variable {env : Environment} {mounts mounts' : Mounts} {dir : Dir} {point : MountPoint} {ok : Bool}
  {name : Name} {out : ResolvedPackage} {s s' : Loading} {located : LocatedPackage}

lemma mount_spec (h : mount env point dir mounts = (mounts', ok)) :
    if ok then mounts' = insert dir mounts else mounts' = mounts ∧ dir ∉ mounts := by
  unfold mount at h
  split at h
  · rename_i mem
    cases h
    exact (Finset.insert_eq_of_mem mem).symm
  · rename_i out
    split at h
    · cases h
      rfl
    · cases h
      exact ⟨rfl, out⟩

lemma textOr_ne_nil {text : Option (List Char)} {other : List Char} (h : other ≠ []) :
    textOr text other ≠ [] := by
  unfold textOr
  split
  · exact h
  · assumption

/-- **`resolve_package`** unmounts the directory, and leaves it mounted if it succeeds. -/
lemma resolvePackage_spec (named : name ≠ []) (h : resolvePackage env name dir mounts = (mounts', ok, out)) :
    mounts' = (if ok then insert dir mounts else mounts.erase dir) ∧ out.packageDir = dir ∧
      (ok = true ↔ out.Resolved) ∧ (ok = false → out.hasAssets = false) := by
  unfold resolvePackage at h
  rw [if_neg named] at h
  dsimp only at h
  have failed : ∀ {m : Mounts}, (m, false, { ResolvedPackage.new with packageDir := dir }) =
      (mounts', ok, out) → m = mounts.erase dir →
        mounts' = (if ok then insert dir mounts else mounts.erase dir) ∧ out.packageDir = dir ∧
          (ok = true ↔ out.Resolved) ∧ (ok = false → out.hasAssets = false) := by
    intro m e hm
    cases e
    exact ⟨hm, rfl, iff_of_false nofun fun h => h rfl, fun _ => rfl⟩
  have erased : ∀ m, unmount dir m = mounts.erase dir → unmount dir (unmount dir m) = mounts.erase dir := by
    intro m hm
    rw [hm]
    exact Finset.erase_idem
  split at h
  · rename_i m₁ hmount
    obtain ⟨rfl, hout⟩ : m₁ = mounts ∧ dir ∉ mounts := by simpa using mount_spec hmount
    exact failed h (Finset.erase_eq_of_notMem hout).symm
  · rename_i m₁ hmount
    obtain rfl : m₁ = insert dir mounts := by simpa using mount_spec hmount
    have once : unmount dir (insert dir mounts) = mounts.erase dir := Finset.erase_insert_eq_erase _ _
    split at h
    · exact failed h once
    · exact failed h (erased _ once)
    · split at h
      · rename_i m₃ hmount₃
        obtain ⟨rfl, -⟩ : m₃ = unmount dir (insert dir mounts) ∧ _ := by simpa using mount_spec hmount₃
        exact failed h once
      · rename_i m₃ hmount₃
        obtain rfl : m₃ = insert dir (unmount dir (insert dir mounts)) := by simpa using mount_spec hmount₃
        cases h
        refine ⟨?_, rfl, iff_of_true rfl (textOr_ne_nil named), nofun⟩
        rw [once, if_pos rfl]
        ext d
        rw [Finset.mem_insert, Finset.mem_insert, Finset.mem_erase]
        tauto

lemma attempt_spec (named : name ≠ []) (h : attempt env s name located = (s', ok, out)) :
    s'.pending = s.pending ∧ (ok = true ↔ out.Resolved) ∧
      (located.found = false → s' = s ∧ ok = false) ∧
      (located.found = true → s'.mounts = (if ok then insert located.hostDir s.mounts
          else s.mounts.erase located.hostDir) ∧
        s'.mountedDirs = s.mountedDirs ++ if ok then [(located.hostDir, out.hasAssets)] else []) ∧
      (out.hasAssets = true → located.found = true ∧ ok = true ∧ out.packageDir = located.hostDir) := by
  unfold attempt at h
  split at h
  · rename_i found
    cases hr : resolvePackage env name located.hostDir s.mounts with
    | mk m r =>
      obtain ⟨ok', out'⟩ := r
      obtain ⟨hm, hdir, hok, hassets⟩ := resolvePackage_spec named hr
      rw [hr] at h
      cases ok' with
      | false =>
        cases h
        refine ⟨rfl, hok, fun h => ?_, fun _ => ⟨hm, (List.append_nil _).symm⟩, fun h => ?_⟩
        · cases found.symm.trans h
        · cases (hassets rfl).symm.trans h
      | true =>
        cases h
        refine ⟨rfl, hok, fun h => ?_, fun _ => ⟨hm, ?_⟩, fun _ => ⟨found, rfl, hdir⟩⟩
        · cases found.symm.trans h
        · rw [← hdir]
          rfl
  · rename_i lost
    cases h
    exact ⟨rfl, iff_of_false nofun fun h => h rfl, fun _ => ⟨rfl, rfl⟩, fun h => absurd h lost, nofun⟩

lemma mem_locatePackages {roots : List Dir} {names : List Name} :
    dir ∈ (locatePackages env roots names mounts).1 ↔ dir ∈ mounts ∧ ¬ (dir ∈ roots ∧ dir ≠ []) := by
  unfold locatePackages
  generalize names.map (fun _ => (⟨[], false⟩ : LocatedPackage)) = located
  induction roots generalizing mounts located with
  | nil => simp
  | cons root roots ih =>
    rw [List.foldl_cons]
    have one : ∃ located', locateIn env names (mounts, located) root =
        (if root = [] then mounts else mounts.erase root, located') := by
      unfold locateIn
      split
      · exact ⟨located, rfl⟩
      · cases hm : mount env .root root mounts with
        | mk m ok =>
          cases ok with
          | false =>
            obtain ⟨rfl, out⟩ : m = mounts ∧ root ∉ mounts := by simpa using mount_spec hm
            exact ⟨located, by rw [Finset.erase_eq_of_notMem out]⟩
          | true =>
            obtain rfl : m = insert root mounts := by simpa using mount_spec hm
            exact ⟨_, by rw [← Finset.erase_insert_eq_erase]; rfl⟩
    obtain ⟨located', e⟩ := one
    rw [e, ih, List.mem_cons]
    split
    · rename_i empty
      rw [empty]
      tauto
    · rename_i named
      rw [Finset.mem_erase]
      rcases eq_or_ne dir root with rfl | hne
      · simp [named]
      · simp [hne]

lemma locatePackages_spec {roots : List Dir} {names : List Name} :
    (locatePackages env roots names mounts).2.length = names.length ∧
      ∀ e ∈ names.zip (locatePackages env roots names mounts).2, e.2.found = true → e.1 ≠ [] := by
  unfold locatePackages
  have start : (names.map fun _ => (⟨[], false⟩ : LocatedPackage)).length = names.length ∧
      ∀ e ∈ names.zip (names.map fun _ => (⟨[], false⟩ : LocatedPackage)), e.2.found = true → e.1 ≠ [] := by
    refine ⟨List.length_map _, fun e he found => ?_⟩
    obtain ⟨_, -, h⟩ := List.mem_map.mp (List.of_mem_zip he).2
    rw [← h] at found
    cases found
  generalize names.map (fun _ => (⟨[], false⟩ : LocatedPackage)) = located at start ⊢
  induction roots generalizing mounts located with
  | nil => exact start
  | cons root roots ih =>
    rw [List.foldl_cons]
    refine @ih (locateIn env names (mounts, located) root).1
      (locateIn env names (mounts, located) root).2 ?_
    unfold locateIn
    split
    · exact start
    · split
      · exact start
      · dsimp only
        refine ⟨by rw [List.length_zipWith, start.1, Nat.min_self], fun e he found => ?_⟩
        obtain ⟨i, hi⟩ := List.mem_iff_getElem?.mp he
        rw [List.getElem?_zip_eq_some, List.getElem?_zipWith_eq_some] at hi
        obtain ⟨hname, name, l, hname', hl, hentry⟩ := hi
        cases hname.symm.trans hname'
        rw [← hentry] at found
        unfold locateEntry at found
        split at found
        · rename_i kept
          rcases kept with kept | empty
          · exact start.2 (e.1, l) (List.mem_of_getElem? (List.getElem?_zip_eq_some.mpr ⟨hname, hl⟩)) kept
          · rcases em (l.found = true) with hf | hf
            · exact start.2 (e.1, l) (List.mem_of_getElem? (List.getElem?_zip_eq_some.mpr ⟨hname, hl⟩)) hf
            · exact absurd found hf
        · rename_i new
          exact (not_or.mp new).2

lemma mem_dirsOf_snoc {ls : List LocatedPackage} :
    dir ∈ dirsOf (ls ++ [located]) ↔ dir ∈ dirsOf ls ∨ located.found = true ∧ located.hostDir = dir := by
  unfold dirsOf
  rw [List.filter_append, List.map_append, List.mem_append]
  refine or_congr_right ?_
  cases h : located.found <;> simp [h, eq_comm]

lemma tries_snoc {ls : List LocatedPackage} {ps : List PendingEntry} (length : ps.length = ls.length)
    (p : PendingEntry) : tries (ls ++ [located]) (ps ++ [p]) dir =
      tries ls ps dir ++ if located.found ∧ located.hostDir = dir then [p.resolved] else [] := by
  unfold tries
  rw [List.zip_append length.symm, List.filter_append, List.map_append]
  congr 1
  by_cases h : located.found = true ∧ located.hostDir = dir <;> simp [h]

lemma tries_eq_nil {ls : List LocatedPackage} {ps : List PendingEntry} (h : dir ∉ dirsOf ls) :
    tries ls ps dir = [] := by
  unfold tries
  rw [List.map_eq_nil_iff, List.filter_eq_nil_iff]
  rintro ⟨l, p⟩ hmem hdir
  rw [decide_eq_true_eq] at hdir
  refine h (List.mem_map.mpr ⟨l, List.mem_filter.mpr ⟨(List.of_mem_zip hmem).1, hdir.1⟩, hdir.2⟩)

def Cleared (before : Mounts) (ls : List LocatedPackage) (s : Loading) : Prop :=
  ∀ dir, (dir ∈ s.mounts ∧ ∀ b, (dir, b) ∉ s.mountedDirs) ↔ dir ∈ before ∧ dir ∉ dirsOf ls

/-- The state after some packages: a directory is mounted when the last try there succeeded, or when it was
mounted before and nothing was tried there. -/
structure Tracked (before : Mounts) (ls : List LocatedPackage) (s : Loading) : Prop where
  length : s.pending.length = ls.length
  mounted : ∀ dir, dir ∈ s.mounts ↔ dir ∈ before ∧ dir ∉ dirsOf ls ∨
    ∃ r ∈ (tries ls s.pending dir).getLast?, r.Resolved
  dirs : ∀ dir b, (dir, b) ∈ s.mountedDirs ↔
    ∃ r ∈ tries ls s.pending dir, r.Resolved ∧ r.hasAssets = b
  assets : ∀ dir, dir ∈ assetDirs s.pending ↔ (dir, true) ∈ s.mountedDirs

lemma Tracked.start (before : Mounts) : Tracked before [] ⟨before, [], []⟩ where
  length := rfl
  mounted dir := by simp [dirsOf, tries]
  dirs dir b := by simp [tries]
  assets dir := by simp [assetDirs]

variable {before : Mounts} {ls : List LocatedPackage}

lemma Tracked.cleared (h : Tracked before ls s) : Cleared before ls s := by
  intro dir
  rw [h.mounted]
  constructor
  · rintro ⟨old | ⟨r, last, resolved⟩, none⟩
    · exact old
    · exact absurd ((h.dirs dir r.hasAssets).mpr ⟨r, List.mem_of_getLast? last, resolved, rfl⟩) (none _)
  · rintro ⟨old, out⟩
    refine ⟨Or.inl ⟨old, out⟩, fun b hb => ?_⟩
    obtain ⟨r, hr, -⟩ := (h.dirs dir b).mp hb
    rw [tries_eq_nil out] at hr
    cases hr

lemma Cleared.attempt (h : Cleared before ls s) (named : name ≠ [])
    (e : attempt env s name located = (s', ok, out)) : Cleared before (ls ++ [located]) s' := by
  obtain ⟨-, -, lost, found, -⟩ := attempt_spec named e
  intro dir
  rw [mem_dirsOf_snoc]
  cases hf : located.found with
  | false =>
    rw [(lost hf).1, h dir]
    simp
  | true =>
    obtain ⟨hm, hd⟩ := found hf
    rw [hm, hd]
    have old := h dir
    rcases eq_or_ne located.hostDir dir with rfl | hne
    · refine iff_of_false ?_ (by simp)
      rintro ⟨mem, none⟩
      cases ok with
      | true => exact none _ (List.mem_append_right _ List.mem_cons_self)
      | false => exact Finset.notMem_erase _ _ mem
    · rw [or_iff_left (fun h => hne h.2), ← old]
      cases ok with
      | true => simp [hne.symm]
      | false => simp [hne.symm]

lemma Tracked.attempt (h : Tracked before ls s) (named : name ≠ [])
    (e : attempt env s name located = (s', ok, out)) :
    Tracked before (ls ++ [located]) { s' with pending := s'.pending ++ [⟨name, out⟩] } := by
  obtain ⟨pending, resolved, lost, found, assets⟩ := attempt_spec named e
  have snoc : ∀ dir, tries (ls ++ [located]) (s.pending ++ [⟨name, out⟩]) dir =
      tries ls s.pending dir ++ if located.found ∧ located.hostDir = dir then [out] else [] :=
    fun dir => tries_snoc h.length _
  have assetDirs_snoc : ∀ dir, dir ∈ assetDirs (s.pending ++ [⟨name, out⟩]) ↔
      dir ∈ assetDirs s.pending ∨ out.hasAssets = true ∧ out.packageDir = dir := by
    intro dir
    unfold assetDirs
    rw [List.filter_append, List.map_append, List.toFinset_append, Finset.mem_union]
    refine or_congr_right ?_
    cases ha : out.hasAssets <;> simp [ha, eq_comm]
  cases hf : located.found with
  | false =>
    obtain ⟨rfl, rfl⟩ := lost hf
    refine ⟨?_, fun dir => ?_, fun dir b => ?_, fun dir => ?_⟩
    · rw [List.length_append, List.length_append, h.length]
      rfl
    · dsimp only
      rw [snoc, mem_dirsOf_snoc, hf, h.mounted]
      simp
    · dsimp only
      rw [snoc, hf, h.dirs]
      simp
    · dsimp only
      rw [assetDirs_snoc, h.assets]
      refine or_iff_left fun ha => ?_
      have := (assets ha.1).1
      rw [hf] at this
      cases this
  | true =>
    obtain ⟨hm, hd⟩ := found hf
    have own : tries (ls ++ [located]) (s.pending ++ [⟨name, out⟩]) located.hostDir =
        tries ls s.pending located.hostDir ++ [out] := by
      rw [snoc, if_pos ⟨hf, rfl⟩]
    have other : ∀ dir, located.hostDir ≠ dir →
        tries (ls ++ [located]) (s.pending ++ [⟨name, out⟩]) dir = tries ls s.pending dir := by
      intro dir hne
      rw [snoc, if_neg (fun h => hne h.2), List.append_nil]
    refine ⟨?_, fun dir => ?_, fun dir b => ?_, fun dir => ?_⟩
    · dsimp only
      rw [pending, List.length_append, List.length_append, h.length]
      rfl
    · dsimp only
      rw [pending, mem_dirsOf_snoc, hf, hm]
      rcases eq_or_ne located.hostDir dir with rfl | hne
      · rw [own, List.getLast?_concat]
        cases ok with
        | true => simp [resolved.mp rfl]
        | false => simp [mt resolved.mpr nofun]
      · rw [other dir hne]
        have old := h.mounted dir
        cases ok with
        | true => simp [hne, hne.symm, old]
        | false => simp [hne, hne.symm, old]
    · dsimp only
      rw [pending, hd, List.mem_append, h.dirs]
      rcases eq_or_ne located.hostDir dir with rfl | hne
      · rw [own]
        cases ok with
        | true => simp [or_and_right, exists_or, resolved.mp rfl, eq_comm]
        | false => simp [or_and_right, exists_or, mt resolved.mpr nofun]
      · rw [other dir hne]
        cases ok with
        | true => simp [hne.symm]
        | false => simp
    · dsimp only
      rw [pending, assetDirs_snoc, h.assets, hd, List.mem_append]
      refine or_congr_right ?_
      constructor
      · rintro ⟨ha, rfl⟩
        obtain ⟨-, hok, hdir⟩ := assets ha
        rw [if_pos hok, ha, hdir]
        exact List.mem_cons_self
      · intro hmem
        split at hmem
        · obtain ⟨hdir, ha⟩ := Prod.mk.inj (List.mem_singleton.mp hmem)
          obtain ⟨-, -, hdir'⟩ := assets ha.symm
          exact ⟨ha.symm, hdir'.trans hdir.symm⟩
        · cases hmem

lemma Tracked.resolveEntry (h : Tracked before ls s) (named : located.found = true → name ≠ [])
    {r : Option LoadResult} (e : resolveEntry env s (name, located) = (s', r)) :
    match r with
    | none => Tracked before (ls ++ [located]) s'
    | some result => result ≠ .ok ∧ s'.pending.length = ls.length ∧ Cleared before (ls ++ [located]) s' := by
  unfold PackageLoader.resolveEntry at e
  dsimp only at e
  split at e
  · rename_i empty
    cases e
    refine ⟨nofun, h.length, fun dir => ?_⟩
    have lost : located.found ≠ true := fun found => named found empty
    rw [h.cleared dir, mem_dirsOf_snoc, or_iff_left (fun h => lost h.1)]
  · rename_i hname
    cases ha : PackageLoader.attempt env s name located with
    | mk s₁ rest =>
      obtain ⟨ok, out⟩ := rest
      rw [ha] at e
      dsimp only at e
      have cleared := h.cleared.attempt hname ha
      have length : s₁.pending.length = ls.length := by
        rw [(attempt_spec hname ha).1, h.length]
      split at e
      · cases e
        exact ⟨nofun, length, cleared⟩
      · split at e
        · cases e
          exact ⟨nofun, length, cleared⟩
        · split at e
          · cases e
            exact ⟨nofun, length, cleared⟩
          · cases e
            exact h.attempt hname ha

lemma Tracked.resolveEntries : ∀ {rest : List (Name × LocatedPackage)} {ls : List LocatedPackage}
    {s s' : Loading} {r : Option LoadResult}, Tracked before ls s →
      (∀ e ∈ rest, e.2.found = true → e.1 ≠ []) → resolveEntries env s rest = (s', r) →
        match r with
        | none => Tracked before (ls ++ rest.map Prod.snd) s'
        | some result => result ≠ .ok ∧
            Cleared before ((ls ++ rest.map Prod.snd).take (s'.pending.length + 1)) s' := by
  intro rest
  induction rest with
  | nil =>
    intro ls s s' r h _ e
    cases e
    rw [List.map_nil, List.append_nil]
    exact h
  | cons entry rest ih =>
    intro ls s s' r h named e
    obtain ⟨hentry, named⟩ := List.forall_mem_cons.mp named
    have cut : ls ++ (entry :: rest).map Prod.snd = ls ++ [entry.2] ++ rest.map Prod.snd := by
      rw [List.map_cons, List.append_assoc]
      rfl
    unfold PackageLoader.resolveEntries at e
    cases he : PackageLoader.resolveEntry env s entry with
    | mk s₁ r₁ =>
      have one := h.resolveEntry hentry he
      rw [he] at e
      cases r₁ with
      | none =>
        rw [cut]
        exact ih one named e
      | some result =>
        cases e
        obtain ⟨hne, length, cleared⟩ := one
        refine ⟨hne, ?_⟩
        have upTo : ls.length + 1 = (ls ++ [entry.2]).length := by
          rw [List.length_append, List.length_singleton]
        rw [cut, length, upTo, List.take_left]
        exact cleared

lemma mem_fail : dir ∈ s.fail ↔ dir ∈ s.mounts ∧ ∀ b, (dir, b) ∉ s.mountedDirs := by
  unfold Loading.fail
  generalize s.mounts = mounts
  generalize s.mountedDirs = dirs
  induction dirs generalizing mounts with
  | nil => simp
  | cons d dirs ih =>
    rw [List.foldl_cons, ih, unmount, Finset.mem_erase]
    obtain ⟨d, b⟩ := d
    simp only [List.mem_cons, Prod.mk.injEq, not_or, forall_and]
    constructor
    · rintro ⟨⟨hne, hm⟩, none⟩
      exact ⟨hm, fun _ h => hne h.1, none⟩
    · rintro ⟨hm, hne, none⟩
      exact ⟨⟨fun h => hne b ⟨h, rfl⟩, hm⟩, none⟩

lemma mem_unmountOthers : dir ∈ s.unmountOthers ↔ dir ∈ s.mounts ∧ (dir, false) ∉ s.mountedDirs := by
  unfold Loading.unmountOthers
  generalize s.mounts = mounts
  generalize s.mountedDirs = dirs
  induction dirs generalizing mounts with
  | nil => simp
  | cons d dirs ih =>
    obtain ⟨d, b⟩ := d
    rw [List.foldl_cons, ih, List.mem_cons, not_or]
    cases b with
    | true => simp
    | false =>
      simp only [Bool.false_eq_true, if_false, unmount, Finset.mem_erase, Prod.mk.injEq, and_true]
      tauto

section End

variable {call : LoadCall} {l : Loaded}

lemma Cleared.fail_eq_iff
    (h : Cleared (locatePackages env call.roots call.names before).1 ls s) :
    s.fail = before ↔ ∀ dir ∈ before, ¬ call.IsRoot dir ∧ dir ∉ dirsOf ls := by
  have mem : ∀ dir, dir ∈ s.fail ↔ (dir ∈ before ∧ ¬ call.IsRoot dir) ∧ dir ∉ dirsOf ls := by
    intro dir
    rw [mem_fail, h dir, mem_locatePackages]
    rfl
  constructor
  · intro e dir hdir
    rw [← e] at hdir
    obtain ⟨⟨-, root⟩, out⟩ := (mem dir).mp hdir
    exact ⟨root, out⟩
  · intro untouched
    ext dir
    rw [mem]
    exact ⟨fun h => h.1.1, fun hdir => ⟨⟨hdir, (untouched dir hdir).1⟩, (untouched dir hdir).2⟩⟩

lemma Tracked.unmountOthers_eq_iff
    (h : Tracked (locatePackages env call.roots call.names before).1 ls s) :
    s.unmountOthers = before ∪ assetDirs s.pending ↔
      ∀ dir ∈ before ∪ assetDirs s.pending, call.IsRoot dir ∨ dir ∈ dirsOf ls →
        KeepsAssets ls s.pending dir := by
  have mem : ∀ dir, dir ∈ s.unmountOthers ↔
      (dir ∈ before ∧ ¬ call.IsRoot dir) ∧ dir ∉ dirsOf ls ∨ KeepsAssets ls s.pending dir := by
    intro dir
    have old : dir ∈ (locatePackages env call.roots call.names before).1 ↔
        dir ∈ before ∧ ¬ call.IsRoot dir := mem_locatePackages
    rw [mem_unmountOthers, h.mounted, h.dirs, ← old]
    constructor
    · rintro ⟨kept | last, none⟩
      · exact Or.inl kept
      · refine Or.inr ⟨last, fun r hr resolved => ?_⟩
        by_contra ha
        exact none ⟨r, hr, resolved, by simpa using ha⟩
    · rintro (kept | ⟨last, all⟩)
      · refine ⟨Or.inl kept, fun ⟨r, hr, _⟩ => ?_⟩
        rw [tries_eq_nil kept.2] at hr
        cases hr
      · refine ⟨Or.inr last, fun ⟨r, hr, resolved, ha⟩ => ?_⟩
        cases (all r hr resolved).symm.trans ha
  have assets : ∀ dir, KeepsAssets ls s.pending dir → dir ∈ assetDirs s.pending := by
    rintro dir ⟨⟨r, last, resolved⟩, all⟩
    have hr := List.mem_of_getLast? last
    exact (h.assets dir).mpr ((h.dirs dir true).mpr ⟨r, hr, resolved, all r hr resolved⟩)
  have tried : ∀ dir ∈ assetDirs s.pending, dir ∈ dirsOf ls := by
    intro dir ha
    by_contra out
    obtain ⟨r, hr, -⟩ := (h.dirs dir true).mp ((h.assets dir).mp ha)
    rw [tries_eq_nil out] at hr
    cases hr
  constructor
  · intro e dir hdir touched
    rw [← e] at hdir
    rcases (mem dir).mp hdir with kept | keeps
    · rcases touched with root | out
      · exact absurd root kept.1.2
      · exact absurd out kept.2
    · exact keeps
  · intro retained
    ext dir
    rw [mem]
    constructor
    · rintro (kept | keeps)
      · exact Finset.mem_union_left _ kept.1.1
      · exact Finset.mem_union_right _ (assets dir keeps)
    · intro hdir
      rcases em (call.IsRoot dir ∨ dir ∈ dirsOf ls) with touched | untouched
      · exact Or.inr (retained dir hdir touched)
      · obtain ⟨root, out⟩ := not_or.mp untouched
        rcases Finset.mem_union.mp hdir with old | new
        · exact Or.inl ⟨⟨old, root⟩, out⟩
        · exact absurd (tried dir new) out

lemma finishLoading_spec (env : Environment) (s : Loading) :
    ∃ l, finishLoading env s = some l ∧ l.packages = s.pending ∧
      l.mounts = if l.result = .ok then s.unmountOthers else s.fail := by
  obtain ⟨ordered, hordered, hne⟩ := orderPackages_ends env.windows env.hasPlugin
    (s.pending.map fun p => ⟨p.name, p.resolved.manifestName, p.resolved.dependencies⟩)
  unfold finishLoading
  rw [hordered, Option.map_some]
  refine ⟨_, rfl, ?_⟩
  cases ordered with
  | error result => exact ⟨rfl, (if_neg fun e => hne (congrArg _ e)).symm⟩
  | ok order => exact ⟨rfl, rfl⟩

/-- **The mounted directories of a load.** For every environment, call and set of mounted directories the
call ends. If it starts to look for packages, its mounts are right after an error exactly when no search root
and no directory of a package that it came to was mounted before, and after a success exactly when what was
mounted before or has assets, and was touched, is kept as the directory of a package with assets. If it does
not start, its mounts are right. -/
theorem mounts_right_iff (env : Environment) (call : LoadCall) (before : Mounts) :
    ∃ l, loadPackages env call before = some l ∧ (MountsRight before l ↔
      (call.Starts env → if l.result = .ok then Retained env call before l
        else Untouched env call before l)) := by
  have refused : ∀ l : Loaded, l.mounts = before → assetDirs l.packages = ∅ → ¬ call.Starts env →
      (MountsRight before l ↔ (call.Starts env → if l.result = .ok then Retained env call before l
        else Untouched env call before l)) := by
    intro l hm ha hnot
    refine iff_of_true ⟨fun _ => hm, fun _ => ?_⟩ fun starts => absurd starts hnot
    rw [hm, ha, Finset.union_empty]
  unfold loadPackages
  split
  · rename_i h
    exact ⟨_, rfl, refused _ rfl rfl fun starts =>
      h.elim (fun h => Bool.false_ne_true (h.symm.trans starts.1)) starts.2.1⟩
  · split
    · rename_i h
      exact ⟨_, rfl, refused _ rfl rfl fun starts => starts.2.2.1 h⟩
    · split
      · rename_i h
        exact ⟨_, rfl, refused _ rfl rfl fun starts => starts.2.2.2.1 h⟩
      · split
        · rename_i h
          exact ⟨_, rfl, refused _ rfl rfl fun starts => h starts.2.2.2.2⟩
        · rename_i happ hpaths hnames hvfs
          have starts : call.Starts env := by
            refine ⟨?_, ?_, hpaths, hnames, not_not.mp hvfs⟩
            · simpa using (not_or.mp happ).1
            · exact (not_or.mp happ).2
          have whole : (call.names.zip (locatePackages env call.roots call.names before).2).map Prod.snd =
              (locatePackages env call.roots call.names before).2 :=
            List.map_snd_zip (by rw [locatePackages_spec.1])
          cases hr : resolveEntries env ⟨(locatePackages env call.roots call.names before).1, [], []⟩
              (call.names.zip (locatePackages env call.roots call.names before).2) with
          | mk s r =>
            have loop := (Tracked.start (locatePackages env call.roots call.names before).1).resolveEntries
              locatePackages_spec.2 hr
            rw [List.nil_append, whole] at loop
            dsimp only
            rw [hr]
            cases r with
            | some result =>
              obtain ⟨hne, cleared⟩ := loop
              refine ⟨_, rfl, ?_⟩
              rw [if_neg hne, forall_prop_of_true starts]
              refine Iff.trans ?_ cleared.fail_eq_iff
              exact ⟨fun right => right.error hne, fun e => ⟨fun _ => e, fun h => absurd h hne⟩⟩
            | none =>
              obtain ⟨l, hl, packages, mounts⟩ := finishLoading_spec env s
              refine ⟨l, hl, ?_⟩
              rw [forall_prop_of_true starts]
              split
              · rename_i success
                rw [if_pos success] at mounts
                unfold Retained
                rw [packages, ← loop.unmountOthers_eq_iff, ← mounts, ← packages]
                exact ⟨fun right => right.success success, fun e => ⟨fun h => absurd success h, fun _ => e⟩⟩
              · rename_i error
                rw [if_neg error] at mounts
                unfold Untouched
                rw [packages, loop.length, List.take_of_length_le (Nat.le_succ _),
                  ← loop.cleared.fail_eq_iff, ← mounts]
                exact ⟨fun right => right.error error, fun e => ⟨fun _ => e, fun h => absurd h error⟩⟩

end End

def bareRoot : Environment where
  windows := false
  mountable _ _ := true
  stat _ name := if name = ['a'] then some .directory else none
  manifest _ _ := .missing
  hasPlugin name := name = "pulse_vfs".toList
  isStatic _ := false
  register _ _ := .ok

/-- A game that has mounted the search root itself loses it. -/
theorem not_mounts_right : ¬ ∀ env call before l, loadPackages env call before = some l →
    MountsRight before l := by
  intro law
  have right := law bareRoot ⟨true, some [some ['r']], some [['a']]⟩ {['r']} ⟨∅, .libraryNotFound, []⟩ rfl
  exact absurd (right.error nofun) (by decide)

end PulseEngine.PackageLoader
