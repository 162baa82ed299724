import PulseEngine.Prefab.Build

/-!
# Walks over component values end

A walk opens a scope of the cursor for every container that it goes into, so it does not go deeper
than scopes can be nested, whatever the shape of the value.
-/

namespace PulseEngine.Prefab

open Datalist Library

variable {δ ω γ : Type} [Double δ] {flecs : Flecs δ ω γ} {world : ω} {doc : Document δ}

/-- How reflection cursors nest their scopes: `depth` counts those that are open, at most
`maxScopes`. -/
structure Nested (flecs : Flecs δ ω γ) (depth : γ → ℕ) : Prop where
  push : ∀ {c c'}, flecs.push c = some c' → depth c' = depth c + 1 ∧ depth c' ≤ flecs.maxScopes
  pop : ∀ {c c'}, flecs.pop c = some c' → depth c' + 1 = depth c
  elem : ∀ {c i c'}, flecs.elem c i = some c' → depth c' = depth c
  tryDotmember : ∀ {c name}, depth (flecs.tryDotmember c name).1 = depth c
  setBool : ∀ {c b c'}, flecs.setBool c b = some c' → depth c' = depth c
  setInt : ∀ {c i c'}, flecs.setInt c i = some c' → depth c' = depth c
  setFloat : ∀ {c d c'}, flecs.setFloat c d = some c' → depth c' = depth c
  setString : ∀ {c s c'}, flecs.setString c s = some c' → depth c' = depth c
  setEntity : ∀ {c e c'}, flecs.setEntity c e = some c' → depth c' = depth c
  scratch : ∀ {world type c}, flecs.scratch world type = some c → depth c = 0
  cursorAt : ∀ {world entity id type c}, flecs.cursorAt world entity id type = some c → depth c = 0

variable {depth : γ → ℕ} {collecting : Bool} {cursor : γ} {node : NodeId} {fuel : ℕ}

/-- A walk that starts with `d` open scopes ends, and leaves as many. -/
def WalksAt (depth : γ → ℕ) (walk : γ → NodeId → Load (Walked γ)) (d : ℕ) : Prop :=
  ∀ cursor node, depth cursor = d → Total (walk cursor node) fun walked => depth walked.1 = d

lemma total_fail {α : Type} {P : α → Prop} (message : String) : Total (fail message) P :=
  total_throw

lemma total_failWith {α : Type} {P : α → Prop} (message : List Text) :
    Total (failWith message) P :=
  total_throw

omit [Double δ] in
lemma ofSet_total {result : Option γ} {d : ℕ} (h : ∀ c, result = some c → depth c = d) :
    Total (ofSet result) fun c => depth c = d := by
  cases result with
  | none => exact total_throw
  | some cursor => exact total_pure (h cursor rfl)

lemma applyScalar_total (nested : Nested flecs depth) :
    Total (applyScalar flecs world doc cursor node) fun c => depth c = depth cursor := by
  rw [applyScalar]
  split
  · exact total_fail _
  split
  · cases getString doc (some node) none none with
    | none => exact total_fail _
    | some text => exact ofSet_total fun c => nested.setEntity
  · cases getType doc (some node) none with
    | bool => exact ofSet_total fun c => nested.setBool
    | int => exact ofSet_total fun c => nested.setInt
    | double => exact ofSet_total fun c => nested.setFloat
    | string => exact ofSet_total fun c => nested.setString
    | _ => exact total_fail _

omit [Double δ] in
lemma walkMember_total {walk : γ → NodeId → Load (Walked γ)} {d : ℕ} (nested : Nested flecs depth)
    (walks : WalksAt depth walk d) (hcursor : depth cursor = d) (name : Text) :
    Total (walkMember flecs world doc collecting walk cursor name node)
      fun walked => depth walked.1 = d := by
  have moved : depth (flecs.tryDotmember cursor name).1 = d := nested.tryDotmember.trans hcursor
  rw [walkMember]
  split
  · exact total_pure hcursor
  simp only
  split
  · exact total_pure moved
  split
  · exact walks _ node moved
  split
  · exact total_pure moved
  · exact walks _ node moved

omit [Double δ] in
lemma walkStruct_total {walk : γ → NodeId → Load (Walked γ)} {d : ℕ} (nested : Nested flecs depth)
    (walks : WalksAt depth walk d) : ∀ {entries : List (Text × NodeId)} {cursor : γ},
      depth cursor = d → Total (walkStruct flecs world doc collecting walk entries cursor)
        fun walked => depth walked.1 = d := by
  intro entries
  induction entries with
  | nil => exact fun hcursor => total_pure hcursor
  | cons entry entries ih =>
    intro cursor hcursor
    exact (walkMember_total nested walks hcursor entry.1).bind fun _ hwalked =>
      (ih hwalked).bind fun _ hrest => total_pure hrest

omit [Double δ] in
lemma walkCollection_total {walk : γ → NodeId → Load (Walked γ)} {d : ℕ}
    (nested : Nested flecs depth) (walks : WalksAt depth walk d) :
    ∀ {items : List NodeId} {i : ℕ} {cursor : γ}, depth cursor = d →
      Total (walkCollection flecs walk i items cursor) fun walked => depth walked.1 = d := by
  intro items
  induction items with
  | nil => exact fun hcursor => total_pure hcursor
  | cons item items ih =>
    intro i cursor hcursor
    rw [walkCollection]
    cases helem : flecs.elem cursor ((i : Int).bmod (2 ^ 32)) with
    | none => exact total_fail _
    | some moved =>
      exact (walks moved item ((nested.elem helem).trans hcursor)).bind fun _ hwalked =>
        (ih hwalked).bind fun _ hrest => total_pure hrest

/-- **Walks end.** A walk has enough fuel when there is more than scopes can still be opened. -/
theorem walkNode_total (nested : Nested flecs depth) : ∀ {fuel d : ℕ},
    d ≤ flecs.maxScopes → flecs.maxScopes < fuel + d →
      WalksAt depth (walkNode flecs world doc collecting fuel) d := by
  intro fuel
  induction fuel with
  | zero =>
    intro d hle hlt
    omega
  | succ fuel ih =>
    intro d hle hlt cursor node hcursor
    rw [walkNode]
    split
    · exact (applyScalar_total nested).bind fun c hc => total_pure (hc.trans hcursor)
    · cases hpush : flecs.push cursor with
      | none => exact total_fail _
      | some pushed =>
        obtain ⟨hdepth, hscopes⟩ := nested.push hpush
        have walks : WalksAt depth (walkNode flecs world doc collecting fuel) (depth pushed) :=
          ih hscopes (by omega)
        have inside : Total (if flecs.isCollection pushed then
              walkCollection flecs (walkNode flecs world doc collecting fuel) 0 (doc node).items
                pushed
            else walkStruct flecs world doc collecting (walkNode flecs world doc collecting fuel)
              (doc node).entries pushed) fun walked => depth walked.1 = depth pushed := by
          split
          · exact walkCollection_total nested walks rfl
          · exact walkStruct_total nested walks rfl
        refine inside.bind ?_
        rintro ⟨closing, met⟩ hclosing
        change depth closing = depth pushed at hclosing
        cases hpop : flecs.pop closing with
        | none =>
          simp only [hpop]
          exact total_fail _
        | some popped =>
          simp only [hpop]
          have hdepth' := nested.pop hpop
          exact total_pure (show depth popped = d by omega)

lemma walkNode_ends (nested : Nested flecs depth) (hcursor : depth cursor = 0) :
    Ends (walkNode flecs world doc collecting (walkFuel flecs) cursor node) :=
  (walkNode_total nested (Nat.zero_le _) (Nat.lt_succ_self _) cursor node hcursor).1

lemma scanNodeReferences_ends (nested : Nested flecs depth) (node : NodeId) :
    Ends (scanNodeReferences flecs world doc node) := by
  rw [scanNodeReferences]
  split
  · exact ends_pure
  · rename_i components _
    refine ends_each fun component => ?_
    rw [scanComponent]
    split
    · exact ends_pure
    split
    · exact ends_pure
    · cases hscratch : flecs.scratch world _ with
      | none => exact ends_pure
      | some cursor =>
        exact ends_bind.mpr ⟨walkNode_ends nested (nested.scratch hscratch), fun _ _ => ends_pure⟩

end PulseEngine.Prefab
