/-
**Trees of directories and files.**

A directory holds entries, each with a name, and what stands behind a name is a file or a directory
again.  A path is a list of names that leads down from a directory, and it is written with slashes
between the names.  This module says what such a tree is, what a written path leads to, and which
entries there are below a directory, one after the other.

The names of a directory are different from one another, none of them is empty, holds a slash or
stands for a directory itself or for the one above.  Then a written path leads to one entry only,
and it can be read back.

Main definitions:

* `FileTree.Node`, `FileTree.WellFormed` — a tree, and that its names are in order;
* `FileTree.Reaches` — the names that lead from a node to another;
* `FileTree.relativePath`, `FileTree.walk` — a written path, and what it leads to;
* `FileTree.belowFrom` — all that is below a node, with the names that lead there.

Main results:

* `FileTree.Reaches.walk_relativePath` — **a written path leads to its entry**;
* `FileTree.mem_belowFrom_iff`, `FileTree.nodup_relativePath` — all entries, and no two of the same
  path;
* `FileTree.belowFrom_perm` — first the entries of a directory, then what is below them.
-/

import Distribuild.Bytes
import Mathlib.Data.List.Nodup
import Mathlib.Data.List.Perm.Basic

set_option relaxedAutoImplicit false
set_option autoImplicit false

namespace FileTree

/-- Where a directory lists itself and the directory above, and the number of that. -/
structure Dots where
  dotAt : ℕ
  dotdotAt : ℕ
  parent : UInt64
deriving DecidableEq

/-- A file or a directory, with the number of its inode.  A directory has its entries in the order
in which they are listed. -/
inductive Node
  | file (inode : UInt64) (content : Bytes)
  | dir (inode : UInt64) (dots : Dots) (entries : List (Bytes × Node))

namespace Node

def inode : Node → UInt64
  | .file inode _ => inode
  | .dir inode _ _ => inode

def isDir : Node → Bool
  | .file _ _ => false
  | .dir _ _ _ => true

end Node

/-- `"."`. -/
def dot : Bytes := Bytes.ofString "."

/-- `".."`. -/
def dotdot : Bytes := Bytes.ofString ".."

/-- A name that an entry of a directory may have. -/
structure ValidName (name : Bytes) : Prop where
  ne_nil : name ≠ []
  no_slash : (47 : UInt8) ∉ name
  ne_dot : name ≠ dot
  ne_dotdot : name ≠ dotdot

/-- The names of each directory of the tree are valid and different from one another. -/
inductive WellFormed : Node → Prop
  | file {inode : UInt64} {content : Bytes} : WellFormed (.file inode content)
  | dir {inode : UInt64} {dots : Dots} {entries : List (Bytes × Node)}
      (nodup : (entries.map Prod.fst).Nodup) (valid : ∀ e ∈ entries, ValidName e.1)
      (below : ∀ e ∈ entries, WellFormed e.2) : WellFormed (.dir inode dots entries)

/-- The names that lead from one node to another. -/
inductive Reaches : Node → List Bytes → Node → Prop
  | here (node : Node) : Reaches node [] node
  | down {inode : UInt64} {dots : Dots} {entries : List (Bytes × Node)} {name : Bytes}
      {child : Node} {names : List Bytes} {node : Node} (mem : (name, child) ∈ entries)
      (below : Reaches child names node) : Reaches (.dir inode dots entries) (name :: names) node

/-! ### Written paths -/

/-- The names with slashes between them. -/
def relativePath (names : List Bytes) : Bytes := [47].intercalate names

/-- What the components of a path lead to from a node, below the nodes `above`.  A component can
only be behind a directory; an empty one and `.` stay, and `..` goes up, as long as that is in the
tree. -/
def walk : List Node → Node → List Bytes → Option Node
  | _, node, [] => some node
  | _, .file _ _, _ :: _ => none
  | above, .dir inode dots entries, name :: names =>
      if name = [] ∨ name = dot then walk above (.dir inode dots entries) names
      else if name = dotdot then
        match above with
        | [] => none
        | parent :: above => walk above parent names
      else
        match entries.lookup name with
        | none => none
        | some child => walk (.dir inode dots entries :: above) child names

theorem relativePath_singleton (name : Bytes) : relativePath [name] = name :=
  List.intercalate_singleton

theorem relativePath_cons {names : List Bytes} (h : names ≠ []) (name : Bytes) :
    relativePath (name :: names) = name ++ [47] ++ relativePath names := by
  cases names with
  | nil => exact absurd rfl h
  | cons next rest => exact List.intercalate_cons_cons

/-- One more name at the end. -/
theorem relativePath_concat {names : List Bytes} (h : names ≠ []) (name : Bytes) :
    relativePath (names ++ [name]) = relativePath names ++ [47] ++ name := by
  induction names with
  | nil => exact absurd rfl h
  | cons first rest ih =>
      cases hrest : rest with
      | nil =>
          rw [List.singleton_append, relativePath_cons (List.cons_ne_nil _ _),
            relativePath_singleton, relativePath_singleton]
      | cons second tail =>
          rw [← hrest, List.cons_append, relativePath_cons (by simp), ih (by simp [hrest]),
            relativePath_cons (by simp [hrest])]
          simp only [List.append_assoc]

/-- The path of a valid name is not empty, however it goes on. -/
theorem relativePath_ne_nil {names : List Bytes} (h : names ≠ []) (hvalid : ∀ n ∈ names, n ≠ []) :
    relativePath names ≠ [] := by
  cases names with
  | nil => exact absurd rfl h
  | cons first rest =>
      cases rest with
      | nil =>
          rw [relativePath_singleton]
          exact hvalid first List.mem_cons_self
      | cons second tail =>
          rw [relativePath_cons (List.cons_ne_nil _ _)]
          simp

/-- The names are read back from a path. -/
theorem splitOn_relativePath {names : List Bytes} (h : names ≠ [])
    (hvalid : ∀ n ∈ names, (47 : UInt8) ∉ n) : (relativePath names).splitOn 47 = names :=
  List.splitOn_intercalate 47 hvalid h

/-- A name leads to one entry only. -/
theorem lookup_of_mem {entries : List (Bytes × Node)} (hnodup : (entries.map Prod.fst).Nodup)
    {name : Bytes} {child : Node} (h : (name, child) ∈ entries) :
    entries.lookup name = some child := by
  obtain ⟨front, back, rfl⟩ := List.append_of_mem h
  refine List.lookup_eq_some_iff.2 ⟨front, back, rfl, fun e he => ?_⟩
  rw [List.map_append, List.map_cons, List.nodup_append] at hnodup
  have hne := hnodup.2.2 e.1 (List.mem_map_of_mem he) name List.mem_cons_self
  simpa using hne.symm

namespace Reaches

variable {root node : Node} {names : List Bytes}

/-- All names on the way are valid. -/
theorem valid (h : Reaches root names node) (hroot : WellFormed root) :
    ∀ n ∈ names, ValidName n := by
  induction h with
  | here => exact fun n hn => absurd hn List.not_mem_nil
  | down mem below ih =>
      cases hroot with
      | dir nodup valid hbelow =>
          intro n hn
          rcases List.mem_cons.1 hn with rfl | hn
          · exact valid _ mem
          · exact ih (hbelow _ mem) n hn

/-- One more step down. -/
theorem concat {inode : UInt64} {dots : Dots} {entries : List (Bytes × Node)} {name : Bytes}
    {child : Node} (h : Reaches root names (.dir inode dots entries))
    (mem : (name, child) ∈ entries) : Reaches root (names ++ [name]) child := by
  generalize hnode : Node.dir inode dots entries = node at h
  induction h with
  | here => exact hnode ▸ down mem (here child)
  | down mem' _ ih => exact down mem' (ih hnode)

/-- What is below a tree in order is in order. -/
theorem wellFormed (h : Reaches root names node) (hroot : WellFormed root) : WellFormed node := by
  induction h with
  | here => exact hroot
  | down mem _ ih =>
      cases hroot with
      | dir nodup valid hbelow => exact ih (hbelow _ mem)

theorem walk_eq (h : Reaches root names node) (hroot : WellFormed root) (above : List Node) :
    walk above root names = some node := by
  induction h generalizing above with
  | here node =>
      cases node with
      | file => rfl
      | dir => rfl
  | @down inode dots entries name child names node mem below ih =>
      cases hroot with
      | dir nodup valid hbelow =>
          have hname := valid _ mem
          have hstay : ¬ (name = [] ∨ name = dot) := not_or.2 ⟨hname.ne_nil, hname.ne_dot⟩
          rw [walk.eq_def]
          dsimp only
          rw [if_neg hstay, if_neg hname.ne_dotdot, lookup_of_mem nodup mem]
          exact ih (hbelow _ mem) _

/-- **A written path leads to its entry**; the empty path stays at a directory. -/
theorem walk_relativePath (h : Reaches root names node) (hroot : WellFormed root)
    (hdir : root.isDir = true) :
    walk [] root ((relativePath names).splitOn 47) = some node := by
  have hvalid := h.valid hroot
  by_cases hnames : names = []
  · subst hnames
    cases h
    cases root with
    | file => cases hdir
    | dir inode dots entries =>
        exact if_pos (Or.inl rfl)
  · rw [splitOn_relativePath hnames fun n hn => (hvalid n hn).no_slash]
    exact h.walk_eq hroot []

end Reaches

/-! ### All that is below a node -/

mutual

/-- All that is below a node to which `names` lead, each with the names that lead there. -/
def belowFrom (names : List Bytes) : Node → List (List Bytes × Node)
  | .file _ _ => []
  | .dir _ _ entries => entriesFrom names entries

/-- The entries of a directory, each with what is below it. -/
def entriesFrom (names : List Bytes) : List (Bytes × Node) → List (List Bytes × Node)
  | [] => []
  | (name, child) :: rest =>
      (names ++ [name], child) :: (belowFrom (names ++ [name]) child ++ entriesFrom names rest)

end

/-- The entries of a directory, with the names that lead there. -/
def children (names : List Bytes) (entries : List (Bytes × Node)) : List (List Bytes × Node) :=
  entries.map fun e => (names ++ [e.1], e.2)

theorem entriesFrom_eq (names : List Bytes) (entries : List (Bytes × Node)) :
    entriesFrom names entries =
      (children names entries).flatMap fun e => e :: belowFrom e.1 e.2 := by
  induction entries with
  | nil => rfl
  | cons entry rest ih =>
      rw [entriesFrom, ih]
      rfl

theorem belowFrom_file (names : List Bytes) (inode : UInt64) (content : Bytes) :
    belowFrom names (.file inode content) = [] := by
  rw [belowFrom]

theorem belowFrom_dir (names : List Bytes) (inode : UInt64) (dots : Dots)
    (entries : List (Bytes × Node)) :
    belowFrom names (.dir inode dots entries) =
      (children names entries).flatMap fun e => e :: belowFrom e.1 e.2 := by
  rw [belowFrom, entriesFrom_eq]

/-- First the entries of a directory, then what is below the directories among them. -/
theorem belowFrom_perm (names : List Bytes) (inode : UInt64) (dots : Dots)
    (entries : List (Bytes × Node)) :
    (children names entries ++
        ((children names entries).filter fun e => e.2.isDir).flatMap fun e =>
          belowFrom e.1 e.2).Perm
      (belowFrom names (.dir inode dots entries)) := by
  have hfiles : ∀ l : List (List Bytes × Node),
      ((l.filter fun e => e.2.isDir).flatMap fun e => belowFrom e.1 e.2) =
        l.flatMap fun e => belowFrom e.1 e.2 := by
    intro l
    induction l with
    | nil => rfl
    | cons entry rest ih =>
        obtain ⟨path, node⟩ := entry
        cases node with
        | file inode content =>
            rw [List.filter_cons_of_neg (by simp [Node.isDir]), ih, List.flatMap_cons,
              belowFrom_file]
            rfl
        | dir inode dots entries =>
            rw [List.filter_cons_of_pos (by rfl), List.flatMap_cons, List.flatMap_cons, ih]
  rw [hfiles, belowFrom_dir]
  simpa using List.map_append_flatMap_perm (children names entries) id fun e => belowFrom e.1 e.2

/-- What is below a node is what further names lead to. -/
theorem mem_belowFrom_iff {root : Node} (hroot : WellFormed root) (names : List Bytes)
    (e : List Bytes × Node) :
    e ∈ belowFrom names root ↔ ∃ rest, rest ≠ [] ∧ e.1 = names ++ rest ∧ Reaches root rest e.2 := by
  obtain ⟨path, node⟩ := e
  induction hroot generalizing names with
  | file =>
      rw [belowFrom_file]
      refine iff_of_false List.not_mem_nil ?_
      rintro ⟨rest, hne, -, hreaches⟩
      cases hreaches
      exact hne rfl
  | @dir inode dots entries nodup valid below ih =>
      rw [belowFrom_dir, children, List.flatMap_map, List.mem_flatMap]
      constructor
      · rintro ⟨entry, hentry, he⟩
        rcases List.mem_cons.1 he with heq | he
        · cases heq
          exact ⟨[entry.1], List.cons_ne_nil _ _, rfl, .down hentry (.here _)⟩
        · obtain ⟨rest, -, hpath, hreaches⟩ := (ih entry hentry _).1 he
          refine ⟨entry.1 :: rest, List.cons_ne_nil _ _, ?_, .down hentry hreaches⟩
          rw [hpath, List.append_assoc, List.singleton_append]
      · rintro ⟨rest, hne, hpath, hreaches⟩
        cases hreaches with
        | here => exact absurd rfl hne
        | @down _ _ _ name child tail _ mem hbelow =>
            refine ⟨(name, child), mem, ?_⟩
            by_cases htail : tail = []
            · subst htail
              cases hbelow
              exact List.mem_cons.2 (Or.inl (Prod.ext hpath rfl))
            · refine List.mem_cons_of_mem _ ((ih _ mem _).2 ⟨tail, htail, ?_, hbelow⟩)
              rw [hpath, List.append_assoc, List.singleton_append]

/-- The names of what is below an entry begin with those of the entry. -/
theorem names_isPrefix {child : Node} (hchild : WellFormed child) {names path : List Bytes}
    (h : path ∈ ((names, child) :: belowFrom names child).map Prod.fst) : names <+: path := by
  obtain ⟨e, he, rfl⟩ := List.mem_map.1 h
  rcases List.mem_cons.1 he with rfl | he
  · exact List.prefix_rfl
  · obtain ⟨rest, -, hpath, -⟩ := (mem_belowFrom_iff hchild names e).1 he
    exact ⟨rest, hpath.symm⟩

/-- No two entries have the same names. -/
theorem nodup_belowFrom {root : Node} (hroot : WellFormed root) (names : List Bytes) :
    ((belowFrom names root).map Prod.fst).Nodup := by
  induction hroot generalizing names with
  | file =>
      rw [belowFrom_file]
      exact List.nodup_nil
  | @dir inode dots entries nodup valid below ih =>
      rw [belowFrom_dir, children, List.flatMap_map, List.map_flatMap, List.nodup_flatMap]
      refine ⟨fun entry hentry => ?_, ?_⟩
      · refine List.nodup_cons.2 ⟨fun hmem => ?_, ih entry hentry _⟩
        obtain ⟨e, he, hpath⟩ := List.mem_map.1 hmem
        obtain ⟨rest, hne, hrest, -⟩ := (mem_belowFrom_iff (below entry hentry) _ e).1 he
        exact hne (List.self_eq_append_right.1 (hpath.symm.trans hrest))
      · refine (List.pairwise_map.1 nodup).imp_of_mem fun {a b} ha hb hne path hpa hpb => hne ?_
        have hstart : names ++ [a.1] <+: names ++ [b.1] :=
          List.prefix_of_prefix_length_le (names_isPrefix (below a ha) hpa)
            (names_isPrefix (below b hb) hpb) (by simp)
        have heq := List.append_cancel_left (hstart.eq_of_length (by simp))
        exact (List.cons.inj heq).1

/-- **No two entries have the same path.** -/
theorem nodup_relativePath {root : Node} (hroot : WellFormed root) :
    ((belowFrom [] root).map fun e => relativePath e.1).Nodup := by
  have hmap : ((belowFrom [] root).map fun e => relativePath e.1) =
      ((belowFrom [] root).map Prod.fst).map relativePath := (List.map_map).symm
  rw [hmap]
  have hvalid : ∀ path ∈ (belowFrom [] root).map Prod.fst,
      path ≠ [] ∧ ∀ n ∈ path, (47 : UInt8) ∉ n := by
    intro path hpath
    obtain ⟨e, he, rfl⟩ := List.mem_map.1 hpath
    obtain ⟨rest, hne, hrest, hreaches⟩ := (mem_belowFrom_iff hroot [] e).1 he
    rw [hrest, List.nil_append]
    exact ⟨hne, fun n hn => (hreaches.valid hroot n hn).no_slash⟩
  refine (nodup_belowFrom hroot []).map_on fun path hpath path' hpath' heq => ?_
  rw [← splitOn_relativePath (hvalid path hpath).1 (hvalid path hpath).2, heq,
    splitOn_relativePath (hvalid path' hpath').1 (hvalid path' hpath').2]

end FileTree
