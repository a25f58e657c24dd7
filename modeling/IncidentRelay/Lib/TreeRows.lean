import Mathlib.Data.List.Sort
import Mathlib.Tactic.Common

/-!
# Trees stored as rows

A forest is stored as rows with a parent pointer and a position among the siblings, and
read back level by level, each level sorted by position and id. Several owners share one
table.

The rows a forest takes are numbered in preorder from the next id on (`levelRows`), so
the parents inside the block of a forest are ids of that block, and no other row has one
of them. `Holds` says this of a table, and a table that holds a forest for an owner reads
that forest back (`Holds.forest_eq`). What is done for one owner leaves the others alone.
-/

namespace IncidentRelay

inductive Rose (α : Type*) where
  | node (label : α) (children : List (Rose α))

structure TreeRow (ν α : Type*) where
  id : ℕ
  owner : ν
  parent : Option ℕ
  position : ℕ
  label : α
  deriving DecidableEq, Repr

/-- `next` is the next value of the id sequence. -/
structure TreeTable (ν α : Type*) where
  rows : List (TreeRow ν α)
  next : ℕ
  deriving DecidableEq, Repr

variable {ν α : Type*}

namespace Rose

mutual
def size : Rose α → ℕ
  | .node _ children => 1 + levelSize children

def levelSize : List (Rose α) → ℕ
  | [] => 0
  | tree :: trees => tree.size + levelSize trees
end

end Rose

open Rose

namespace TreeTable

/-! ## Writing -/

def insert (t : TreeTable ν α) (owner : ν) (parent : Option ℕ) (position : ℕ) (label : α) :
    TreeTable ν α where
  rows := t.rows ++ [⟨t.next, owner, parent, position, label⟩]
  next := t.next + 1

mutual
/-- One tree: its root, and then its children under the id of the root. -/
def createTree (t : TreeTable ν α) (owner : ν) (parent : Option ℕ) (position : ℕ) :
    Rose α → TreeTable ν α
  | .node label children =>
    createLevel (t.insert owner parent position label) owner (some t.next) 0 children

def createLevel (t : TreeTable ν α) (owner : ν) (parent : Option ℕ) (position : ℕ) :
    List (Rose α) → TreeTable ν α
  | [] => t
  | tree :: trees =>
    createLevel (createTree t owner parent position tree) owner parent (position + 1) trees
end

/-- A forest for an owner, from position 0 on. -/
def create (t : TreeTable ν α) (owner : ν) (trees : List (Rose α)) : TreeTable ν α :=
  createLevel t owner none 0 trees

variable [DecidableEq ν]

/-- Removes the rows of an owner. -/
def clear (t : TreeTable ν α) (owner : ν) : TreeTable ν α where
  rows := t.rows.filter fun r => r.owner ≠ owner
  next := t.next

def rowsOf (t : TreeTable ν α) (owner : ν) : List (TreeRow ν α) :=
  t.rows.filter fun r => r.owner = owner

/-! ## Reading -/

/-- `ORDER BY position, id` -/
def Before (r s : TreeRow ν α) : Prop :=
  r.position < s.position ∨ r.position = s.position ∧ r.id ≤ s.id

instance : DecidableRel (Before : TreeRow ν α → TreeRow ν α → Prop) := fun r s =>
  inferInstanceAs (Decidable (r.position < s.position ∨ r.position = s.position ∧ r.id ≤ s.id))

def sortRows (rows : List (TreeRow ν α)) : List (TreeRow ν α) := rows.insertionSort Before

def children (rows : List (TreeRow ν α)) (id : ℕ) : List (TreeRow ν α) :=
  sortRows (rows.filter fun r => r.parent = some id)

/-- The tree under a row. The first argument bounds the depth. -/
def readTree (rows : List (TreeRow ν α)) : ℕ → TreeRow ν α → Rose α
  | 0, r => .node r.label []
  | k + 1, r => .node r.label ((children rows r.id).map (readTree rows k))

def roots (t : TreeTable ν α) (owner : ν) : List (TreeRow ν α) :=
  sortRows (t.rows.filter fun r => r.owner = owner && r.parent = none)

def forest (t : TreeTable ν α) (owner : ν) : List (Rose α) :=
  (t.roots owner).map (readTree t.rows t.rows.length)

end TreeTable

/-! ## The block of a forest -/

section Block

open TreeTable

variable (owner : ν)

mutual
def treeRows (parent : Option ℕ) (position n : ℕ) : Rose α → List (TreeRow ν α)
  | .node label children => ⟨n, owner, parent, position, label⟩ :: levelRows (some n) 0 (n + 1) children

def levelRows (parent : Option ℕ) (position n : ℕ) : List (Rose α) → List (TreeRow ν α)
  | [] => []
  | tree :: trees =>
    treeRows parent position n tree ++ levelRows parent (position + 1) (n + tree.size) trees
end

/-- The roots in the block of a forest. -/
def rootRows (parent : Option ℕ) (position n : ℕ) : List (Rose α) → List (TreeRow ν α)
  | [] => []
  | .node label children :: trees =>
    ⟨n, owner, parent, position, label⟩ ::
      rootRows parent (position + 1) (n + (Rose.node label children).size) trees

mutual
/-- A tree has a row for each node. -/
theorem length_treeRows (parent : Option ℕ) (position n : ℕ) :
    ∀ tree : Rose α, (treeRows owner parent position n tree).length = tree.size
  | .node label children => by
    rw [treeRows, List.length_cons, length_levelRows _ _ _ children, Rose.size]
    omega

theorem length_levelRows (parent : Option ℕ) (position n : ℕ) :
    ∀ trees : List (Rose α), (levelRows owner parent position n trees).length = levelSize trees
  | [] => rfl
  | tree :: trees => by
    rw [levelRows, List.length_append, length_treeRows _ _ _ tree, length_levelRows _ _ _ trees,
      levelSize]
end

/-- The owner, the id and the parent of a row in a block of ids. -/
structure InBlock (parent : Option ℕ) (lo hi : ℕ) (r : TreeRow ν α) : Prop where
  owner : r.owner = owner
  lower : lo ≤ r.id
  upper : r.id < hi
  parent : r.parent = parent ∨ ∃ q, r.parent = some q ∧ lo ≤ q ∧ q < hi

variable {owner}

/-- A row of a block is one of a wider block. -/
theorem InBlock.widen {parent : Option ℕ} {lo hi lo' hi' : ℕ} {r : TreeRow ν α}
    (h : InBlock owner parent lo hi r) (hlo : lo' ≤ lo) (hhi : hi ≤ hi') :
    InBlock owner parent lo' hi' r where
  owner := h.owner
  lower := hlo.trans h.lower
  upper := h.upper.trans_le hhi
  parent := h.parent.imp_right fun ⟨q, hq, hl, hu⟩ => ⟨q, hq, hlo.trans hl, hu.trans_le hhi⟩

mutual
/-- The rows of a tree fill its block. -/
theorem mem_treeRows {parent : Option ℕ} {position n : ℕ} :
    ∀ {tree : Rose α} {r : TreeRow ν α}, r ∈ treeRows owner parent position n tree →
      InBlock owner parent n (n + tree.size) r
  | .node label children, r, hr => by
    rw [treeRows, List.mem_cons] at hr
    have hsize : (Rose.node label children).size = 1 + levelSize children := rfl
    rcases hr with rfl | hr
    · exact ⟨rfl, le_rfl, by show n < _; omega, .inl rfl⟩
    · -- below the root the parent is the root or inside the block of the children
      have h := mem_levelRows hr
      refine ⟨h.owner, by have := h.lower; omega, by have := h.upper; omega, .inr ?_⟩
      rcases h.parent with hp | ⟨q, hq, hl, hu⟩
      · exact ⟨n, hp, le_rfl, by omega⟩
      · exact ⟨q, hq, by omega, by omega⟩

theorem mem_levelRows {parent : Option ℕ} {position n : ℕ} :
    ∀ {trees : List (Rose α)} {r : TreeRow ν α}, r ∈ levelRows owner parent position n trees →
      InBlock owner parent n (n + levelSize trees) r
  | tree :: trees, r, hr => by
    rw [levelRows, List.mem_append] at hr
    rw [levelSize]
    rcases hr with hr | hr
    · exact (mem_treeRows hr).widen le_rfl (by omega)
    · exact (mem_levelRows hr).widen (by omega) (by omega)
end

/-! ## Reading a block back -/

/-- Only the root has the parent of the tree. -/
theorem filter_treeRows {parent : Option ℕ} {position n : ℕ} (hparent : ∀ q ∈ parent, q < n)
    (label : α) (children : List (Rose α)) :
    (treeRows owner parent position n (.node label children)).filter (fun r => r.parent = parent) =
      [⟨n, owner, parent, position, label⟩] := by
  have hnil : (levelRows owner (some n) 0 (n + 1) children).filter (fun r => r.parent = parent) =
      [] := by
    rw [List.filter_eq_nil_iff]
    intro r hr
    -- the rows below the root have parents from `n` on
    rcases (mem_levelRows hr).parent with hp | ⟨q, hq, hl, -⟩
    · have := hparent n
      simp only [hp, decide_eq_true_eq]
      rintro rfl
      exact absurd (this rfl) (lt_irrefl n)
    · have := hparent q
      simp only [hq, decide_eq_true_eq]
      rintro rfl
      have := this rfl
      omega
  rw [treeRows, List.filter_cons_of_pos (by simp), hnil]

/-- At a level these are the roots. -/
theorem filter_levelRows {parent : Option ℕ} {position n : ℕ} (hparent : ∀ q ∈ parent, q < n)
    (trees : List (Rose α)) :
    (levelRows owner parent position n trees).filter (fun r => r.parent = parent) =
      rootRows owner parent position n trees := by
  induction trees generalizing position n with
  | nil => rfl
  | cons tree trees ih =>
    obtain ⟨label, children⟩ := tree
    rw [levelRows, List.filter_append, filter_treeRows hparent, rootRows,
      ih fun q hq => (hparent q hq).trans_le (Nat.le_add_right _ _)]
    rfl

/-- The roots are at the places from the first on. -/
theorem position_rootRows {parent : Option ℕ} {position n : ℕ} {trees : List (Rose α)}
    {r : TreeRow ν α} (hr : r ∈ rootRows owner parent position n trees) :
    position ≤ r.position := by
  induction trees generalizing position n with
  | nil => simp [rootRows] at hr
  | cons tree trees ih =>
    obtain ⟨label, children⟩ := tree
    rw [rootRows, List.mem_cons] at hr
    rcases hr with rfl | hr
    · exact le_rfl
    · exact (Nat.le_succ _).trans (ih hr)

theorem sortRows_rootRows (parent : Option ℕ) (position n : ℕ) (trees : List (Rose α)) :
    sortRows (rootRows owner parent position n trees) = rootRows owner parent position n trees := by
  apply List.Pairwise.insertionSort_eq
  induction trees generalizing position n with
  | nil => exact List.Pairwise.nil
  | cons tree trees ih =>
    obtain ⟨label, children⟩ := tree
    refine List.Pairwise.cons (fun r hr => .inl ?_) (ih _ _)
    exact position_rootRows hr

/-- A block among other rows, none of which has a parent in the block. -/
structure Apart (lo hi : ℕ) (rows : List (TreeRow ν α)) : Prop where
  parent : ∀ r ∈ rows, ∀ q ∈ r.parent, q < lo ∨ hi ≤ q

theorem Apart.narrow {lo hi lo' hi' : ℕ} {rows : List (TreeRow ν α)} (h : Apart lo hi rows)
    (hlo : lo ≤ lo') (hhi : hi' ≤ hi) : Apart lo' hi' rows where
  parent r hr q hq := (h.parent r hr q hq).imp (·.trans_le hlo) hhi.trans

theorem Apart.append {lo hi : ℕ} {rows rows' : List (TreeRow ν α)} (h : Apart lo hi rows)
    (h' : Apart lo hi rows') : Apart lo hi (rows ++ rows') where
  parent r hr := (List.mem_append.mp hr).elim (h.parent r) (h'.parent r)

/-- Nothing outside has its parent in the block. -/
theorem Apart.filter_eq_nil {lo hi n : ℕ} {rows : List (TreeRow ν α)} (h : Apart lo hi rows)
    (hlo : lo ≤ n) (hhi : n < hi) : rows.filter (fun r => r.parent = some n) = [] := by
  rw [List.filter_eq_nil_iff]
  intro r hr hp
  have := h.parent r hr n (by simpa using hp)
  omega

/-- The rows of one block are apart from the ids outside it. -/
theorem apart_treeRows {parent : Option ℕ} {position n lo hi : ℕ} {tree : Rose α}
    (hparent : ∀ q ∈ parent, q < lo ∨ hi ≤ q) (hout : n + tree.size ≤ lo ∨ hi ≤ n) :
    Apart lo hi (treeRows owner parent position n tree) where
  parent r hr q hq := by
    rcases (mem_treeRows hr).parent with hp | ⟨q', hq', hl, hu⟩
    · exact hparent q (hp ▸ hq)
    · obtain rfl : q' = q := by simpa [hq'] using hq
      omega

/-- The rows of another level are apart. -/
theorem apart_levelRows {parent : Option ℕ} {position n lo hi : ℕ} {trees : List (Rose α)}
    (hparent : ∀ q ∈ parent, q < lo ∨ hi ≤ q) (hout : n + levelSize trees ≤ lo ∨ hi ≤ n) :
    Apart lo hi (levelRows owner parent position n trees) where
  parent r hr q hq := by
    rcases (mem_levelRows hr).parent with hp | ⟨q', hq', hl, hu⟩
    · exact hparent q (hp ▸ hq)
    · obtain rfl : q' = q := by simpa [hq'] using hq
      omega

theorem lt_succ_of_mem_some {n q : ℕ} (h : q ∈ some n) : q < n + 1 := by
  obtain rfl : n = q := by simpa using h
  exact Nat.lt_succ_self n

mutual
/-- **A tree is read back from its block**, whatever rows are around it. By induction on the
tree. -/
theorem readTree_block (parent : Option ℕ) (position n k : ℕ) (pre post : List (TreeRow ν α)) :
    ∀ (label : α) (children : List (Rose α)), (∀ q ∈ parent, q < n) →
      Apart n (n + (Rose.node label children).size) pre →
      Apart n (n + (Rose.node label children).size) post →
      levelSize children < k →
      readTree (pre ++ treeRows owner parent position n (.node label children) ++ post) k
        ⟨n, owner, parent, position, label⟩ = .node label children
  | label, children, hparent, hpre, hpost, hk => by
    obtain ⟨k, rfl⟩ : ∃ k', k = k' + 1 := ⟨k - 1, by omega⟩
    have hsize : (Rose.node label children).size = 1 + levelSize children := rfl
    -- the root goes to the rows in front of its children's block
    have hroot : Apart (n + 1) (n + 1 + levelSize children)
        (pre ++ [(⟨n, owner, parent, position, label⟩ : TreeRow ν α)]) := by
      refine (hpre.narrow (by omega) (by omega)).append ⟨fun r hr q hq => ?_⟩
      obtain rfl := List.mem_singleton.mp hr
      exact .inl ((hparent q hq).trans (Nat.lt_succ_self n))
    have hlevel := readLevel_block (some n) 0 (n + 1) k _ post children
      (fun q => lt_succ_of_mem_some) hroot (hpost.narrow (by omega) (by omega)) (by omega)
    have hrows : pre ++ treeRows owner parent position n (.node label children) ++ post =
        pre ++ [⟨n, owner, parent, position, label⟩] ++ levelRows owner (some n) 0 (n + 1) children ++
          post := by
      rw [treeRows]
      simp
    have hself : ¬parent = some n := fun h => absurd (hparent n h) (lt_irrefl n)
    have hchildren : TreeTable.children
        (pre ++ treeRows owner parent position n (.node label children) ++ post) n =
        rootRows owner (some n) 0 (n + 1) children := by
      rw [hrows, TreeTable.children, List.filter_append, List.filter_append, List.filter_append,
        hpre.filter_eq_nil le_rfl (by omega), hpost.filter_eq_nil le_rfl (by omega),
        filter_levelRows fun q => lt_succ_of_mem_some]
      simp only [List.filter_singleton, hself, decide_false, List.nil_append, List.append_nil,
        cond_false, sortRows_rootRows]
    rw [readTree, hchildren, hrows, hlevel]

theorem readLevel_block (parent : Option ℕ) (position n k : ℕ) (pre post : List (TreeRow ν α)) :
    ∀ (trees : List (Rose α)), (∀ q ∈ parent, q < n) →
      Apart n (n + levelSize trees) pre → Apart n (n + levelSize trees) post →
      levelSize trees ≤ k →
      (rootRows owner parent position n trees).map
        (readTree (pre ++ levelRows owner parent position n trees ++ post) k) = trees
  | [], _, _, _, _ => rfl
  | .node label children :: trees, hparent, hpre, hpost, hk => by
    have hsize : (Rose.node label children).size = 1 + levelSize children := rfl
    have hlevel : levelSize (.node label children :: trees) =
      (Rose.node label children).size + levelSize trees := rfl
    have htree := readTree_block parent position n k pre
      (levelRows owner parent (position + 1) (n + (Rose.node label children).size) trees ++ post)
      label children hparent (hpre.narrow le_rfl (by omega))
      ((apart_levelRows (fun q hq => .inl (hparent q hq)) (.inr le_rfl)).append
        (hpost.narrow le_rfl (by omega))) (by omega)
    have hrest := readLevel_block parent (position + 1) (n + (Rose.node label children).size) k
      (pre ++ treeRows owner parent position n (.node label children)) post trees
      (fun q hq => (hparent q hq).trans_le (Nat.le_add_right _ _))
      ((hpre.narrow (by omega) (by omega)).append
        (apart_treeRows (fun q hq => .inl ((hparent q hq).trans_le (by omega))) (.inl le_rfl)))
      (hpost.narrow (by omega) (by omega)) (by omega)
    rw [rootRows, levelRows, List.map_cons]
    congr 1
    · rwa [List.append_assoc, List.append_assoc, ← List.append_assoc pre]
    · rwa [← List.append_assoc]
end

end Block

/-! ## Tables that hold forests -/

namespace TreeTable

mutual
/-- Creating a tree appends its rows. -/
theorem createTree_eq (t : TreeTable ν α) (owner : ν) (parent : Option ℕ) (position : ℕ) :
    ∀ tree : Rose α, t.createTree owner parent position tree =
      ⟨t.rows ++ treeRows owner parent position t.next tree, t.next + tree.size⟩
  | .node label children => by
    rw [createTree, createLevel_eq _ _ _ _ children, treeRows, Rose.size]
    simp [insert, Nat.add_assoc]

theorem createLevel_eq (t : TreeTable ν α) (owner : ν) (parent : Option ℕ) (position : ℕ) :
    ∀ trees : List (Rose α), t.createLevel owner parent position trees =
      ⟨t.rows ++ levelRows owner parent position t.next trees, t.next + levelSize trees⟩
  | [] => by simp [createLevel, levelRows, levelSize]
  | tree :: trees => by
    rw [createLevel, createTree_eq _ _ _ _ tree, createLevel_eq _ _ _ _ trees, levelRows, levelSize,
      List.append_assoc, Nat.add_assoc]
end

theorem create_eq (t : TreeTable ν α) (owner : ν) (trees : List (Rose α)) :
    t.create owner trees =
      ⟨t.rows ++ levelRows owner none 0 t.next trees, t.next + levelSize trees⟩ :=
  createLevel_eq t owner none 0 trees

/-- The id sequence is ahead of every id and every parent. -/
structure Sound (t : TreeTable ν α) : Prop where
  id : ∀ r ∈ t.rows, r.id < t.next
  parent : ∀ r ∈ t.rows, ∀ q ∈ r.parent, q < t.next

/-- The rows of the owner are the block of the forest, and no other row points into it. -/
def Holds (t : TreeTable ν α) (owner : ν) (trees : List (Rose α)) : Prop :=
  ∃ pre post n, t.rows = pre ++ levelRows owner none 0 n trees ++ post ∧
    (∀ r ∈ pre ++ post, r.owner ≠ owner) ∧ Apart n (n + levelSize trees) (pre ++ post) ∧
    n + levelSize trees ≤ t.next

theorem Sound.create {t : TreeTable ν α} (h : t.Sound) (owner : ν) (trees : List (Rose α)) :
    (t.create owner trees).Sound := by
  rw [create_eq]
  constructor
  · intro r hr
    rcases List.mem_append.mp hr with hr | hr
    · exact (h.id r hr).trans_le (Nat.le_add_right _ _)
    · exact (mem_levelRows hr).upper
  · intro r hr q hq
    rcases List.mem_append.mp hr with hr | hr
    · exact (h.parent r hr q hq).trans_le (Nat.le_add_right _ _)
    · rcases (mem_levelRows hr).parent with hp | ⟨q', hq', -, hu⟩
      · simp [hp] at hq
      · obtain rfl : q' = q := by simpa [hq'] using hq
        exact hu

/-- What is created for one owner leaves the trees of another. -/
theorem Holds.create_of_ne {t : TreeTable ν α} {owner other : ν} {trees : List (Rose α)}
    (h : t.Holds owner trees) (hne : other ≠ owner) (trees' : List (Rose α)) :
    (t.create other trees').Holds owner trees := by
  obtain ⟨pre, post, n, hrows, howner, hapart, hnext⟩ := h
  refine ⟨pre, post ++ levelRows other none 0 t.next trees', n, ?_, ?_, ?_, ?_⟩
  · rw [create_eq]
    simp [hrows]
  · rw [← List.append_assoc]
    intro r hr
    rcases List.mem_append.mp hr with hr | hr
    · exact howner r hr
    · rw [(mem_levelRows hr).owner]
      exact hne
  · rw [← List.append_assoc]
    exact hapart.append (apart_levelRows (by simp) (.inr hnext))
  · rw [create_eq]
    exact hnext.trans (Nat.le_add_right _ _)

/-- A table without a row of the owner holds the empty forest for it. -/
theorem holds_nil {t : TreeTable ν α} {owner : ν} (h : ∀ r ∈ t.rows, r.owner ≠ owner) :
    t.Holds owner [] := by
  refine ⟨t.rows, [], t.next, by simp [levelRows], by simpa using h, ⟨?_⟩, le_rfl⟩
  intro r _ q _
  show q < t.next ∨ t.next + 0 ≤ q
  omega

/-- An owner without trees has no rows. -/
theorem Holds.no_rows {t : TreeTable ν α} {owner : ν} (h : t.Holds owner []) :
    ∀ r ∈ t.rows, r.owner ≠ owner := by
  obtain ⟨pre, post, n, hrows, howner, -, -⟩ := h
  intro r hr
  rw [hrows] at hr
  exact howner r (by simpa [levelRows] using hr)

/-- What is written for an owner without rows is what the table then holds. -/
theorem Holds.create {t : TreeTable ν α} {owner : ν} (h : t.Holds owner []) (ht : t.Sound)
    (trees : List (Rose α)) : (t.create owner trees).Holds owner trees := by
  rw [create_eq]
  refine ⟨t.rows, [], t.next, by simp, by simpa using h.no_rows, ⟨?_⟩, le_rfl⟩
  intro r hr q hq
  exact .inl (ht.parent r (by simpa using hr) q hq)

variable [DecidableEq ν]

theorem Sound.clear {t : TreeTable ν α} (h : t.Sound) (owner : ν) : (t.clear owner).Sound where
  id r hr := h.id r (List.mem_of_mem_filter hr)
  parent r hr := h.parent r (List.mem_of_mem_filter hr)

theorem filter_levelRows_of_ne {owner other : ν} (hne : owner ≠ other) (parent : Option ℕ)
    (position n : ℕ) (trees : List (Rose α)) :
    (levelRows owner parent position n trees).filter (fun r => r.owner ≠ other) =
      levelRows owner parent position n trees := by
  rw [List.filter_eq_self]
  intro r hr
  rw [(mem_levelRows hr).owner]
  simpa using hne

theorem Holds.clear_of_ne {t : TreeTable ν α} {owner other : ν} {trees : List (Rose α)}
    (h : t.Holds owner trees) (hne : other ≠ owner) : (t.clear other).Holds owner trees := by
  obtain ⟨pre, post, n, hrows, howner, hapart, hnext⟩ := h
  refine ⟨pre.filter fun r => r.owner ≠ other, post.filter fun r => r.owner ≠ other, n, ?_, ?_, ?_,
    hnext⟩
  · show t.rows.filter _ = _
    rw [hrows, List.filter_append, List.filter_append, filter_levelRows_of_ne hne.symm]
  · rw [← List.filter_append]
    exact fun r hr => howner r (List.mem_of_mem_filter hr)
  · rw [← List.filter_append]
    exact ⟨fun r hr => hapart.parent r (List.mem_of_mem_filter hr)⟩

theorem holds_clear (t : TreeTable ν α) (owner : ν) : (t.clear owner).Holds owner [] :=
  holds_nil fun r hr => by simpa using (List.mem_filter.mp hr).2

/-- **Reading gives back what the table holds.** -/
theorem Holds.forest_eq {t : TreeTable ν α} {owner : ν} {trees : List (Rose α)}
    (h : t.Holds owner trees) : t.forest owner = trees := by
  obtain ⟨pre, post, n, hrows, howner, hapart, -⟩ := h
  have hpre : Apart n (n + levelSize trees) pre :=
    ⟨fun r hr => hapart.parent r (List.mem_append_left _ hr)⟩
  have hpost : Apart n (n + levelSize trees) post :=
    ⟨fun r hr => hapart.parent r (List.mem_append_right _ hr)⟩
  -- the owner picks the block, and in the block the roots have no parent
  have hroots : t.roots owner = rootRows owner none 0 n trees := by
    have hout : ∀ rows : List (TreeRow ν α), (∀ r ∈ rows, r ∈ pre ++ post) →
        rows.filter (fun r => r.owner = owner && r.parent = none) = [] := by
      intro rows hsub
      rw [List.filter_eq_nil_iff]
      intro r hr
      simp [howner r (hsub r hr)]
    have hin : (levelRows owner none 0 n trees).filter
        (fun r => r.owner = owner && r.parent = none) = rootRows owner none 0 n trees := by
      rw [← filter_levelRows (by simp)]
      apply List.filter_congr
      intro r hr
      simp [(mem_levelRows hr).owner]
    rw [roots, hrows, List.filter_append, List.filter_append, hin,
      hout pre fun r hr => List.mem_append_left _ hr,
      hout post fun r hr => List.mem_append_right _ hr, List.nil_append, List.append_nil,
      sortRows_rootRows]
  have hlength : levelSize trees ≤ t.rows.length := by
    rw [hrows, List.length_append, List.length_append, length_levelRows]
    omega
  rw [forest, hroots, hrows]
  rw [hrows] at hlength
  exact readLevel_block none 0 n _ pre post trees (by simp) hpre hpost hlength

/-- The rows of another owner after creating. -/
theorem rowsOf_create_of_ne {t : TreeTable ν α} {owner other : ν} (hne : other ≠ owner)
    (trees : List (Rose α)) : (t.create other trees).rowsOf owner = t.rowsOf owner := by
  rw [create_eq, rowsOf, rowsOf, List.filter_append, List.append_right_eq_self,
    List.filter_eq_nil_iff]
  intro r hr
  rw [(mem_levelRows hr).owner]
  simpa using hne

theorem rowsOf_clear_of_ne {t : TreeTable ν α} {owner other : ν} (hne : other ≠ owner) :
    (t.clear other).rowsOf owner = t.rowsOf owner := by
  rw [rowsOf, rowsOf, clear, List.filter_filter]
  apply List.filter_congr
  intro r _
  by_cases h : r.owner = owner <;> simp [h, hne.symm]

end TreeTable

end IncidentRelay
