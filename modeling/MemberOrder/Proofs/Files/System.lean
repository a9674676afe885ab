import Mathlib.Tactic.SplitIfs
import MemberOrder.Files.System
import MemberOrder.Proofs.Text.Raw

/-!
Where paths lead, and what writing leaves alone. Two file systems that differ at most in what files
hold lead every path to the same spot, so writing to a file moves no other. A walk whose last
component is a proper name ends at an entry of a directory with that name, or at what such an entry
links to.
-/

set_option autoImplicit false

namespace MemberOrder

/-- Two steps succeed where the first does and the second does with its result. -/
theorem exists_of_bind_eq_ok {ε α β : Type} {first : Except ε α} {next : α → Except ε β} {b : β}
    (h : first >>= next = .ok b) : ∃ a, first = .ok a ∧ next a = .ok b := by
  cases first with
  | error e => cases h
  | ok a => exact ⟨a, rfl, h⟩

theorem mapError_eq_ok_iff {ε ε' α : Type} {f : ε → ε'} {result : Except ε α} {a : α} :
    result.mapError f = .ok a ↔ result = .ok a := by
  cases result <;> simp [Except.mapError]

theorem mapError_eq_error_iff {ε ε' α : Type} {f : ε → ε'} {result : Except ε α} {e : ε'} :
    result.mapError f = .error e ↔ ∃ cause, result = .error cause ∧ f cause = e := by
  cases result <;> simp [Except.mapError]

namespace FileSystem

variable {fs fs' : FileSystem}

/-! ### Nodes -/

theorem lookup_map_node (nodes : List (Inode × Node)) (i j : Inode) (node : Node) :
    (nodes.map fun (other, old) ↦ if other = i then (other, node) else (other, old)).lookup j =
      (nodes.lookup j).map fun old ↦ if j = i then node else old := by
  induction nodes with
  | nil => rfl
  | cons entry rest ih =>
    obtain ⟨first, old⟩ := entry
    have hentry : (if first = i then (first, node) else (first, old)) =
        (first, if first = i then node else old) := by
      split_ifs <;> rfl
    rw [List.map_cons]
    simp only [hentry]
    rw [List.lookup_cons, List.lookup_cons, ih]
    by_cases hfirst : j = first
    · rw [hfirst, beq_self_eq_true]
      rfl
    · rw [beq_eq_false_iff_ne.mpr hfirst]

/-- Changing a node changes no other. -/
theorem node?_put (fs : FileSystem) (i j : Inode) (node : Node) :
    (fs.put i node).node? j = (fs.node? j).map fun old ↦ if j = i then node else old :=
  lookup_map_node fs.nodes i j node

theorem node?_put_self {i : Inode} {old : Node} (h : fs.node? i = some old) (node : Node) :
    (fs.put i node).node? i = some node := by
  simp [node?_put, h]

theorem node?_put_of_ne {i j : Inode} (h : j ≠ i) (node : Node) :
    (fs.put i node).node? j = fs.node? j := by
  rw [node?_put]
  cases fs.node? j <;> simp [h]

/-! ### Files that are rewritten -/

/-- The file systems differ at most in what files hold. -/
structure SamePlaces (fs fs' : FileSystem) : Prop where
  root : fs'.root = fs.root
  working : fs'.working = fs.working
  node : ∀ i, fs'.node? i = fs.node? i ∨
    ∃ old new, fs.node? i = some (.file old) ∧ fs'.node? i = some (.file new)

theorem SamePlaces.refl (fs : FileSystem) : fs.SamePlaces fs := ⟨rfl, rfl, fun _ ↦ Or.inl rfl⟩

theorem SamePlaces.symm (h : fs.SamePlaces fs') : fs'.SamePlaces fs := by
  refine ⟨h.root.symm, h.working.symm, fun i ↦ ?_⟩
  rcases h.node i with hi | ⟨old, new, hold, hnew⟩
  · exact Or.inl hi.symm
  · exact Or.inr ⟨new, old, hnew, hold⟩

theorem SamePlaces.put {i : Inode} {old : List UInt8} (h : fs.node? i = some (.file old))
    (new : List UInt8) : fs.SamePlaces (fs.put i (.file new)) := by
  refine ⟨rfl, rfl, fun j ↦ ?_⟩
  by_cases hj : j = i
  · subst hj
    exact Or.inr ⟨old, new, h, node?_put_self h _⟩
  · exact Or.inl (node?_put_of_ne hj _)

theorem SamePlaces.walkWith_eq (h : fs.SamePlaces fs')
    (jump : Inode → List FileName → Except FileError Spot) (i : Inode) (names : List FileName) :
    fs'.walkWith jump i names = fs.walkWith jump i names := by
  induction names generalizing i with
  | nil => rfl
  | cons name rest ih =>
    have hstart (path : List UInt8) : fs'.startOf i path = fs.startOf i path := by
      rw [startOf, startOf, h.root]
    simp only [walkWith, ih, hstart]
    rcases h.node i with hi | ⟨old, new, hold, hnew⟩
    · rw [hi]
      split
      · split_ifs
        iterate 3 rfl
        all_goals
          split
          · rfl
          · rename_i j _
            rcases h.node j with hj | ⟨old, new, hold, hnew⟩
            · rw [hj]
            · rw [hold, hnew]
      · rfl
      · rfl
      · rfl
    · rw [hold, hnew]

theorem SamePlaces.walk_eq (h : fs.SamePlaces fs') (links : Nat) :
    fs'.walk links = fs.walk links := by
  induction links with
  | zero =>
    funext i names
    exact h.walkWith_eq _ i names
  | succ links ih =>
    funext i names
    simp only [walk, ih]
    exact h.walkWith_eq _ i names

/-- Paths lead where they led. -/
theorem SamePlaces.resolve_eq (h : fs.SamePlaces fs') (path : List UInt8) :
    fs'.resolve path = fs.resolve path := by
  simp only [resolve, resolveFrom, startOf, h.walk_eq, h.root, h.working]

theorem SamePlaces.trans {fs'' : FileSystem} (h : fs.SamePlaces fs')
    (h' : fs'.SamePlaces fs'') : fs.SamePlaces fs'' := by
  refine ⟨h'.root.trans h.root, h'.working.trans h.working, fun i ↦ ?_⟩
  rcases h.node i with hi | ⟨old, new, hold, hnew⟩ <;>
    rcases h'.node i with hi' | ⟨old', new', hold', hnew'⟩
  · exact Or.inl (hi'.trans hi)
  · exact Or.inr ⟨old', new', hi ▸ hold', hnew'⟩
  · exact Or.inr ⟨old, new, hold, hi'.trans hnew⟩
  · exact Or.inr ⟨old, new', hold, hnew'⟩

/-! ### Reading and writing -/

/-- What is read at a path is what the node there gives. -/
theorem read_eq_ok {path bytes : List UInt8} (h : fs.read path = .ok bytes) :
    ∃ i node, fs.resolve path = .ok (.found i) ∧ fs.node? i = some node ∧
      node.contents = .ok bytes := by
  obtain ⟨spot, hspot, h⟩ := exists_of_bind_eq_ok h
  cases spot with
  | vacant directory name => cases h
  | found i =>
    simp only at h
    cases hnode : fs.node? i with
    | none =>
      rw [hnode] at h
      cases h
    | some node =>
      rw [hnode] at h
      exact ⟨i, node, hspot, hnode, h⟩

/-- What is written at the path of a file takes its place. -/
theorem write_of_file {path : List UInt8} {i : Inode} {old : List UInt8}
    (hspot : fs.resolve path = .ok (.found i)) (hnode : fs.node? i = some (.file old))
    (new : List UInt8) : fs.write path new = .ok (fs.put i (.file new)) := by
  simp only [write, hspot, bind, Except.bind, hnode]

theorem write_of_guarded {path : List UInt8} {i : Inode} {readable : Option (List UInt8)}
    {refusal : FileError} (hspot : fs.resolve path = .ok (.found i))
    (hnode : fs.node? i = some (.guarded readable refusal)) (new : List UInt8) :
    fs.write path new = .error refusal := by
  simp only [write, hspot, bind, Except.bind, hnode]

/-! ### The last name of a path -/

/-- A directory gives the node a name. -/
def Entry (fs : FileSystem) (name : FileName) (i : Inode) : Prop :=
  ∃ directory parent entries, fs.node? directory = some (.directory parent entries) ∧
    (name, i) ∈ entries

/-- The node has the name, or is what a link with that name leads to. -/
def Called (fs : FileSystem) (name : FileName) (i : Inode) : Prop :=
  fs.Entry name i ∨ ∃ j target, fs.Entry name j ∧ fs.node? j = some (.link target)

theorem mem_of_lookup_eq_some {α β : Type} [BEq α] [LawfulBEq α] {l : List (α × β)} {a : α} {b : β}
    (h : l.lookup a = some b) : (a, b) ∈ l := by
  obtain ⟨front, back, rfl, -⟩ := List.lookup_eq_some_iff.mp h
  exact List.mem_append_cons_self

variable {name : FileName} {i k : Inode}

theorem called_of_walkWith {jump : Inode → List FileName → Except FileError Spot}
    (hjump : ∀ i names, jump i (names ++ [name]) = .ok (.found k) → fs.Called name k)
    (hempty : name ≠ []) (hhere : name ≠ hereName) (hparent : name ≠ parentName)
    {names : List FileName} (h : fs.walkWith jump i (names ++ [name]) = .ok (.found k)) :
    fs.Called name k := by
  induction names generalizing i with
  | nil =>
    simp only [List.nil_append, walkWith] at h
    split at h
    · rename_i parent entries hnode
      rw [if_neg (by simp [hempty, hhere]), if_neg hparent] at h
      split_ifs at h
      split at h
      · cases h
      · rename_i j hentry
        have hj : fs.Entry name j := ⟨i, parent, entries, hnode, mem_of_lookup_eq_some hentry⟩
        split at h
        · rename_i target hlink
          exact Or.inr ⟨j, target, hj, hlink⟩
        · cases h
          exact Or.inl hj
    · cases h
    · cases h
    · cases h
  | cons first rest ih =>
    have hrest : rest ++ [name] ≠ [] := List.append_ne_nil_of_right_ne_nil _ (List.cons_ne_nil _ _)
    simp only [List.cons_append, walkWith, hrest, if_false] at h
    split at h
    · split_ifs at h
      · exact ih h
      · exact ih h
      · split at h
        · cases h
        · split at h
          · rw [← List.append_assoc] at h
            exact hjump _ _ h
          · exact ih h
    · cases h
    · cases h
    · cases h

/-- A walk that ends with a proper name leads to a node called so. -/
theorem called_of_walk (hempty : name ≠ []) (hhere : name ≠ hereName) (hparent : name ≠ parentName)
    (links : Nat) {i : Inode} {names : List FileName}
    (h : fs.walk links i (names ++ [name]) = .ok (.found k)) : fs.Called name k := by
  induction links generalizing i names with
  | zero =>
    rw [walk] at h
    refine called_of_walkWith (fun _ _ hjump ↦ ?_) hempty hhere hparent h
    cases hjump
  | succ links ih =>
    rw [walk] at h
    exact called_of_walkWith (fun _ _ hjump ↦ ih hjump) hempty hhere hparent h

/-- A path whose last component is a proper name leads to a node called so. -/
theorem called_of_resolve (hempty : name ≠ []) (hhere : name ≠ hereName)
    (hparent : name ≠ parentName) {path : List UInt8} {others : List FileName}
    (hpieces : Text.pieces slash path = others ++ [name])
    (h : fs.resolve path = .ok (.found k)) : fs.Called name k := by
  unfold resolve resolveFrom at h
  split_ifs at h
  rw [hpieces] at h
  exact called_of_walk hempty hhere hparent linkLimit h

end FileSystem

end MemberOrder
