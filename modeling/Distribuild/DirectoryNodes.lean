/-
**Collecting the files of a directory.**

A compile is done in a directory of its own, and when it is over everything in that directory is
read and sent back.  `GetDirNodesRecursively` goes through the directories one after the other: it
has a queue of directories, of which it takes the first, appends the entries of that to the result
and those of them that are directories to the queue.  An entry gets the name of its directory and a
slash in front of its own name, except directly below the root, whose name is empty.  `ReadAll` then
reads the regular files.  This module embeds both, from `common/dir.h` and
`daemon/cloud/temp_dir.cpp`.

What kind an entry is of is asked by masks.  The kinds are numbers and not single bits, so that a
regular file passes for a link and a socket, too, and a directory for a block device and a socket;
but a regular file never passes for a directory, nor a directory for a regular file.  `readdir` need
not report the kind: where a file system does not keep it, `d_type` is `DT_UNKNOWN`, which passes
for nothing.  Nor need a node be one that can be opened.  So both belong to the file system here,
and what is relied on is named.

Main definitions:

* `Common.Mount` — a directory tree, the path at which it is found and what can be seen of it;
* `Common.Mount.KeepsTypes`, `Common.Mount.Opens` — what the collection relies on;
* `Common.getDirNodes`, `Common.getDirNodesRecursively` — the functions of these names;
* `Cloud.TempDir.readAll` — `ReadAll`;
* `Common.Pending` — the invariant of the loop.

Main results:

* `Common.nodeOf_file`, `Common.nodeOf_dir` — what the masks make of an entry;
* `Common.pending_round` — what one directory of the queue adds;
* `Common.returns_getDirNodesRecursively` — the loop ends, with all entries;
* `Cloud.TempDir.readAll_finds` — **every entry is found once, and every file is read once**.
-/

import Distribuild.FileTree
import Distribuild.Loop

set_option relaxedAutoImplicit false
set_option autoImplicit false

namespace Common

open FileTree
open Loop (Returns)

/-! ### The file system -/

/-- `dirent`. -/
structure Dirent where
  dName : Bytes
  dIno : UInt64
  dType : UInt8
deriving DecidableEq

def dtChr : UInt8 := 2
def dtDir : UInt8 := 4
def dtBlk : UInt8 := 6
def dtReg : UInt8 := 8
def dtLnk : UInt8 := 10
def dtSock : UInt8 := 12

/-- The kind of a node. -/
def dTypeOf : Node → UInt8
  | .file _ _ => dtReg
  | .dir _ _ _ => dtDir

/-- A directory tree with its names in order, and a path that leads to its root. -/
structure Mount where
  path : Bytes
  inode : UInt64
  dots : Dots
  entries : List (Bytes × Node)
  wellFormed : WellFormed (.dir inode dots entries)
  /-- What `readdir` reports of a node as its kind, which is `DT_UNKNOWN` if it is not kept. -/
  dType : Node → UInt8
  /-- Whether a node can be opened. -/
  opens : Node → Bool

/-- One more in a list, at a place in it or at its end. -/
def place {α : Type} (index : ℕ) (a : α) (l : List α) : List α := l.take index ++ a :: l.drop index

namespace Mount

def root (m : Mount) : Node := .dir m.inode m.dots m.entries

/-- What is found at a path. -/
def lookup (m : Mount) (path : Bytes) : Option Node :=
  if m.path ++ [47] <+: path then
    walk [] m.root ((path.drop (m.path.length + 1)).splitOn 47)
  else none

/-- `opendir`: what `readdir` then returns, call by call. -/
def opendir (m : Mount) (path : Bytes) : Option (List Dirent) :=
  match m.lookup path with
  | some (.dir inode dots entries) =>
      let self : Node := .dir inode dots entries
      if m.opens self then
        some (place dots.dotAt { dName := dot, dIno := inode, dType := m.dType self }
          (place dots.dotdotAt { dName := dotdot, dIno := dots.parent, dType := m.dType self }
            (entries.map fun e => { dName := e.1, dIno := e.2.inode, dType := m.dType e.2 })))
      else none
  | _ => none

/-- All that an `ifstream` reads, if it can be opened. -/
def readFile (m : Mount) (path : Bytes) : Option Bytes :=
  match m.lookup path with
  | some (.file inode content) => if m.opens (.file inode content) then some content else none
  | _ => none

/-- The file system keeps the kinds of the nodes, and `readdir` reports them. -/
def KeepsTypes (m : Mount) : Prop :=
  ∀ names node, Reaches m.root names node → m.dType node = dTypeOf node

/-- Every node of the tree can be opened. -/
def Opens (m : Mount) : Prop := ∀ names node, Reaches m.root names node → m.opens node = true

end Mount

/-! ### The functions -/

/-- `DirNode`. -/
structure DirNode where
  name : Bytes
  inode : UInt64
  isBlockDev : Bool
  isCharDev : Bool
  isDir : Bool
  isSymlink : Bool
  isRegular : Bool
  isUnixSocket : Bool
deriving DecidableEq

/-- What `GetDirNodes` makes of an entry. -/
def toDirNode (ent : Dirent) : DirNode where
  name := ent.dName
  inode := ent.dIno
  isBlockDev := ent.dType &&& dtBlk != 0
  isCharDev := ent.dType &&& dtChr != 0
  isDir := ent.dType &&& dtDir != 0
  isSymlink := ent.dType &&& dtLnk != 0
  isRegular := ent.dType &&& dtReg != 0
  isUnixSocket := ent.dType &&& dtSock != 0

/-- The entries that are left out. -/
def isDots (ent : Dirent) : Bool := ent.dName == dot || ent.dName == dotdot

/-- `GetDirNodes`.  Nothing comes back if the directory cannot be opened: the check only logs it,
and `readdir` of a null pointer is undefined. -/
def getDirNodes (m : Mount) (path : Bytes) : Option (List DirNode) :=
  (m.opendir path).map fun stream =>
    (stream.filter fun ent => !isDots ent).map toDirNode

/-- The variables of `GetDirNodesRecursively`. -/
structure Traversal where
  result : List DirNode := []
  queue : List Bytes := [[]]

/-- One round of the loop of `GetDirNodesRecursively`. -/
def takeFront (m : Mount) (path : Bytes) (s : Traversal) : Traversal ⊕ Option (List DirNode) :=
  match s.queue with
  | [] => .inr (some s.result)
  | front :: queue =>
      match getDirNodes m (path ++ [47] ++ front) with
      | none => .inr none
      | some temp =>
          let temp :=
            if front ≠ [] then temp.map fun e => { e with name := front ++ [47] ++ e.name }
            else temp
          .inl
            { result := s.result ++ temp
              queue := queue ++ (temp.filter fun e => e.isDir).map fun e => e.name }

/-- `GetDirNodesRecursively`. -/
def getDirNodesRecursively (m : Mount) (path : Bytes) (fuel : ℕ) : Option (Option (List DirNode)) :=
  Loop.run (takeFront m path) fuel {}

/-! ### One directory -/

/-- The `DirNode` of a node that is found under a name. -/
def nodeOf (name : Bytes) (node : Node) : DirNode :=
  toDirNode { dName := name, dIno := node.inode, dType := dTypeOf node }

/-- The `DirNode` of an entry, with its path. -/
def entryOf (e : List Bytes × Node) : DirNode := nodeOf (relativePath e.1) e.2

@[simp] theorem nodeOf_name (name : Bytes) (node : Node) : (nodeOf name node).name = name := rfl

/-- A regular file passes for a link and a socket as well. -/
theorem nodeOf_file (name : Bytes) (inode : UInt64) (content : Bytes) :
    nodeOf name (.file inode content) =
      { name := name
        inode := inode
        isBlockDev := false
        isCharDev := false
        isDir := false
        isSymlink := true
        isRegular := true
        isUnixSocket := true } := by
  simp only [nodeOf, toDirNode, DirNode.mk.injEq, dTypeOf, Node.inode, true_and]
  decide

/-- A directory passes for a block device and a socket as well. -/
theorem nodeOf_dir (name : Bytes) (inode : UInt64) (dots : Dots) (entries : List (Bytes × Node)) :
    nodeOf name (.dir inode dots entries) =
      { name := name
        inode := inode
        isBlockDev := true
        isCharDev := false
        isDir := true
        isSymlink := false
        isRegular := false
        isUnixSocket := true } := by
  simp only [nodeOf, toDirNode, DirNode.mk.injEq, dTypeOf, Node.inode, true_and]
  decide

/-- But it is only the directories that pass for directories, -/
@[simp] theorem nodeOf_isDir (name : Bytes) (node : Node) :
    (nodeOf name node).isDir = node.isDir := by
  cases node with
  | file =>
      rw [nodeOf_file]
      rfl
  | dir =>
      rw [nodeOf_dir]
      rfl

/-- and only the regular files that pass for regular files. -/
@[simp] theorem nodeOf_isRegular (name : Bytes) (node : Node) :
    (nodeOf name node).isRegular = !node.isDir := by
  cases node with
  | file =>
      rw [nodeOf_file]
      rfl
  | dir =>
      rw [nodeOf_dir]
      rfl

theorem filter_place {ent : Dirent} (h : isDots ent = true) (index : ℕ) (l : List Dirent) :
    ((place index ent l).filter fun ent => !isDots ent) = l.filter fun ent => !isDots ent := by
  rw [place, List.filter_append, List.filter_cons_of_neg (by simp [h]), ← List.filter_append,
    List.take_append_drop]

namespace Mount

variable {m : Mount} {names : List Bytes} {node : Node}

theorem lookup_eq (h : Reaches m.root names node) :
    m.lookup (m.path ++ [47] ++ relativePath names) = some node := by
  have hdrop : (m.path ++ [47] ++ relativePath names).drop (m.path.length + 1) =
      relativePath names := by
    have hlen : (m.path ++ [47]).length = m.path.length + 1 := by simp
    rw [← hlen, List.drop_left]
  rw [lookup, if_pos (List.prefix_append _ _), hdrop]
  exact h.walk_relativePath m.wellFormed rfl

theorem readFile_eq (hopens : m.Opens) {inode : UInt64} {content : Bytes}
    (h : Reaches m.root names (.file inode content)) :
    m.readFile (m.path ++ [47] ++ relativePath names) = some content := by
  simp only [readFile, lookup_eq h, hopens _ _ h, if_true]

end Mount

/-- **A directory is read**: each of its entries once, and nothing else. -/
theorem getDirNodes_eq {m : Mount} (htypes : m.KeepsTypes) (hopens : m.Opens) {names : List Bytes}
    {inode : UInt64} {dots : Dots} {entries : List (Bytes × Node)}
    (h : Reaches m.root names (.dir inode dots entries)) :
    getDirNodes m (m.path ++ [47] ++ relativePath names) =
      some (entries.map fun e => nodeOf e.1 e.2) := by
  have hvalid : ∀ e ∈ entries, ValidName e.1 := by
    cases h.wellFormed m.wellFormed with
    | dir nodup valid below => exact valid
  simp only [getDirNodes, Mount.opendir, Mount.lookup_eq h, hopens _ _ h, if_true, Option.map_some]
  rw [filter_place (by rfl), filter_place (by rfl), List.filter_eq_self.2, List.map_map]
  · refine congrArg some (List.map_congr_left fun e he => ?_)
    rw [Function.comp_apply, htypes _ _ (h.concat he)]
    rfl
  · intro ent hent
    obtain ⟨e, he, rfl⟩ := List.mem_map.1 hent
    simp [isDots, (hvalid e he).ne_dot, (hvalid e he).ne_dotdot]

/-- The name of an entry behind the name of its directory is its path. -/
theorem rename_eq {m : Mount} {names : List Bytes} {node : Node} (h : Reaches m.root names node)
    (entries : List (Bytes × Node)) :
    (if relativePath names ≠ [] then
        (entries.map fun e => nodeOf e.1 e.2).map fun e =>
          { e with name := relativePath names ++ [47] ++ e.name }
      else entries.map fun e => nodeOf e.1 e.2) =
      (children names entries).map entryOf := by
  rw [show (children names entries).map entryOf = entries.map fun e => entryOf (names ++ [e.1], e.2)
    from List.map_map]
  by_cases hnames : names = []
  · subst hnames
    rw [if_neg (not_not.2 (by rfl))]
    refine List.map_congr_left fun e _ => ?_
    show nodeOf e.1 e.2 = nodeOf (relativePath [e.1]) e.2
    rw [relativePath_singleton]
  · have hne := relativePath_ne_nil hnames fun n hn => (h.valid m.wellFormed n hn).ne_nil
    rw [if_pos hne, List.map_map]
    refine List.map_congr_left fun e _ => ?_
    show nodeOf (relativePath names ++ [47] ++ e.1) e.2 = nodeOf (relativePath (names ++ [e.1])) e.2
    rw [relativePath_concat hnames]

/-! ### The loop -/

/-- What holds between two rounds: `found` are the entries of the result and `pending` the
directories of the queue, and what is not found yet is below one of these. -/
structure Pending (m : Mount) (found pending : List (List Bytes × Node)) (s : Traversal) :
    Prop where
  result : s.result = found.map entryOf
  queue : s.queue = pending.map fun e => relativePath e.1
  isDir : ∀ e ∈ pending, e.2.isDir = true
  reaches : ∀ e ∈ pending, Reaches m.root e.1 e.2
  perm : (found ++ pending.flatMap fun e => belowFrom e.1 e.2).Perm (belowFrom [] m.root)

/-- In the beginning only the root is in the queue. -/
theorem pending_init (m : Mount) : Pending m [] [([], m.root)] {} where
  result := rfl
  queue := rfl
  isDir := fun e he => List.mem_singleton.1 he ▸ rfl
  reaches := fun e he => List.mem_singleton.1 he ▸ .here m.root
  perm := by
    rw [List.flatMap_singleton, List.nil_append]

section Rounds

variable {m : Mount} {found pending : List (List Bytes × Node)} {s : Traversal}

theorem Pending.length_le (h : Pending m found pending s) :
    s.result.length ≤ (belowFrom [] m.root).length := by
  rw [h.result, List.length_map, ← h.perm.length_eq, List.length_append]
  exact Nat.le_add_right _ _

/-- The directories among the entries of a directory come to the end of the queue, the others are
done. -/
theorem Pending.perm_round {names : List Bytes} {inode : UInt64} {dots : Dots}
    {entries : List (Bytes × Node)}
    (h : Pending m found ((names, .dir inode dots entries) :: pending) s) :
    ((found ++ children names entries) ++
        (pending ++ (children names entries).filter fun e => e.2.isDir).flatMap fun e =>
          belowFrom e.1 e.2).Perm (belowFrom [] m.root) := by
  refine List.Perm.trans ?_ h.perm
  rw [List.flatMap_append, List.flatMap_cons, List.append_assoc]
  refine List.Perm.append_left found ?_
  -- the entries are put in front of what is below the other directories
  calc children names entries ++ ((pending.flatMap fun e => belowFrom e.1 e.2) ++
          ((children names entries).filter fun e => e.2.isDir).flatMap fun e => belowFrom e.1 e.2)
      _ |>.Perm (children names entries ++
          (((children names entries).filter fun e => e.2.isDir).flatMap fun e =>
            belowFrom e.1 e.2) ++
          pending.flatMap fun e => belowFrom e.1 e.2) := by
        rw [List.append_assoc]
        exact List.perm_append_comm.append_left _
      _ |>.Perm (belowFrom names (.dir inode dots entries) ++
          pending.flatMap fun e => belowFrom e.1 e.2) :=
        (belowFrom_perm names inode dots entries).append_right _

/-- **A directory is taken from the queue**: its entries are found, and those that are directories
come into the queue. -/
theorem pending_round (htypes : m.KeepsTypes) (hopens : m.Opens) {names : List Bytes}
    {inode : UInt64} {dots : Dots} {entries : List (Bytes × Node)}
    (h : Pending m found ((names, .dir inode dots entries) :: pending) s) :
    ∃ s', takeFront m m.path s = .inl s' ∧
      Pending m (found ++ children names entries)
        (pending ++ (children names entries).filter fun e => e.2.isDir) s' := by
  have hreaches := h.reaches _ List.mem_cons_self
  have hqueue : s.queue = relativePath names :: pending.map fun e => relativePath e.1 := h.queue
  refine ⟨{ result := s.result ++ (children names entries).map entryOf
            queue := (pending.map fun e => relativePath e.1) ++
              (((children names entries).map entryOf).filter fun e => e.isDir).map
                fun e => e.name },
    ?_, ?_⟩
  · simp only [takeFront, hqueue, getDirNodes_eq htypes hopens hreaches, rename_eq hreaches]
  · refine ⟨?_, ?_, fun e he => ?_, fun e he => ?_, h.perm_round⟩
    · show s.result ++ _ = _
      rw [h.result, List.map_append]
    · show _ ++ _ = _
      rw [List.filter_map, List.map_map, List.map_append]
      congr 2
      refine List.filter_congr fun e _ => ?_
      exact nodeOf_isDir _ _
    · rcases List.mem_append.1 he with he | he
      · exact h.isDir e (List.mem_cons_of_mem _ he)
      · exact (List.mem_filter.1 he).2
    · rcases List.mem_append.1 he with he | he
      · exact h.reaches e (List.mem_cons_of_mem _ he)
      · obtain ⟨entry, hentry, rfl⟩ := List.mem_map.1 (List.mem_filter.1 he).1
        exact hreaches.concat hentry

end Rounds

/-- How much is still to do: an entry that is found may come into the queue, but only once. -/
def remaining (m : Mount) (s : Traversal) : ℕ :=
  2 * ((belowFrom [] m.root).length - s.result.length) + s.queue.length

/-- All entries of a tree, each once. -/
structure Enumerates (root : Node) (found : List (List Bytes × Node)) : Prop where
  nodup : (found.map fun e => relativePath e.1).Nodup
  mem_iff : ∀ names node, (names, node) ∈ found ↔ names ≠ [] ∧ Reaches root names node

theorem Enumerates.of_perm {m : Mount} {found : List (List Bytes × Node)}
    (h : found.Perm (belowFrom [] m.root)) : Enumerates m.root found := by
  refine ⟨(h.map _).nodup_iff.2 (nodup_relativePath m.wellFormed), fun names node => ?_⟩
  rw [h.mem_iff, Mount.root, mem_belowFrom_iff m.wellFormed]
  constructor
  · rintro ⟨rest, hne, rfl, hreaches⟩
    exact ⟨hne, hreaches⟩
  · rintro ⟨hne, hreaches⟩
    exact ⟨names, hne, rfl, hreaches⟩

/-- A round that goes on does some of what is still to do, and the last one leaves with all entries.
-/
theorem round_of_pending {m : Mount} (htypes : m.KeepsTypes) (hopens : m.Opens)
    {found pending : List (List Bytes × Node)} {s : Traversal} (h : Pending m found pending s) :
    Loop.Round (fun s => ∃ found pending, Pending m found pending s)
      (fun t s => remaining m t < remaining m s)
      (fun r => ∃ found, Enumerates m.root found ∧ r = some (found.map entryOf)) s
      (takeFront m m.path s) := by
  cases pending with
  | nil =>
      have hqueue : s.queue = [] := h.queue
      have hperm := h.perm
      rw [List.flatMap_nil, List.append_nil] at hperm
      rw [takeFront, hqueue]
      exact ⟨found, .of_perm hperm, congrArg some h.result⟩
  | cons front pending =>
      obtain ⟨names, node⟩ := front
      cases node with
      | file => exact absurd (h.isDir _ List.mem_cons_self) Bool.false_ne_true
      | dir inode dots entries =>
          obtain ⟨s', hs', h'⟩ := pending_round htypes hopens h
          rw [hs']
          refine ⟨⟨_, _, h'⟩, ?_⟩
          have hle := h'.length_le
          have hfilter := (children names entries).length_filter_le fun e => e.2.isDir
          rw [h'.result, List.length_map, List.length_append] at hle
          show remaining m s' < remaining m s
          rw [remaining, remaining, h.result, h'.result, h.queue, h'.queue]
          simp only [List.length_map, List.length_append, List.length_cons]
          omega

/-- **`GetDirNodesRecursively` ends**, and it returns all entries. -/
theorem returns_getDirNodesRecursively {m : Mount} (htypes : m.KeepsTypes) (hopens : m.Opens) :
    ∃ found, Enumerates m.root found ∧
      Returns (getDirNodesRecursively m m.path) (some (found.map entryOf)) := by
  obtain ⟨r, ⟨found, hfound, rfl⟩, hreturns⟩ := Loop.run_measure (takeFront m m.path)
    (fun s => ∃ found pending, Pending m found pending s) (remaining m)
    (fun r => ∃ found, Enumerates m.root found ∧ r = some (found.map entryOf))
    (fun s ⟨_, _, h⟩ => round_of_pending htypes hopens h) ⟨[], _, pending_init m⟩
  exact ⟨found, hfound, hreturns⟩

end Common

namespace Cloud

open FileTree
open Common (Mount DirNode Enumerates entryOf)
open Loop (Returns)

/-! ### Reading the files -/

/-- `TempDir`. -/
structure TempDir where
  /-- Whether the directory has been made, and not been removed. -/
  alive : Bool
  path : Bytes

/-- The loop of `ReadAll`.  A file that cannot be opened is logged, and read as an empty one. -/
def readNodes (m : Mount) (rootDir : Bytes) : List DirNode → List (Bytes × Bytes)
  | [] => []
  | node :: nodes =>
      if node.isRegular then
        (node.name, (m.readFile (rootDir ++ [47] ++ node.name)).getD []) ::
          readNodes m rootDir nodes
      else readNodes m rootDir nodes

/-- `TempDir::ReadAll`.  That the directory is not alive is logged, and changes nothing. -/
def TempDir.readAll (t : TempDir) (m : Mount) (subdir : Bytes) (fuel : ℕ) :
    Option (Option (List (Bytes × Bytes))) :=
  let rootDir := t.path ++ [47] ++ subdir
  (Common.getDirNodesRecursively m rootDir fuel).map fun nodes => nodes.map (readNodes m rootDir)

/-- The path and the content of an entry, if it is a file. -/
def fileOf (e : List Bytes × Node) : Option (Bytes × Bytes) :=
  match e.2 with
  | .file _ content => some (relativePath e.1, content)
  | .dir _ _ _ => none

/-- The files among the entries are read. -/
theorem readNodes_eq {m : Mount} (hopens : m.Opens) {found : List (List Bytes × Node)}
    (h : ∀ e ∈ found, Reaches m.root e.1 e.2) :
    readNodes m m.path (found.map entryOf) = found.filterMap fileOf := by
  induction found with
  | nil => rfl
  | cons e found ih =>
      have hrest := ih fun e he => h e (List.mem_cons_of_mem _ he)
      have hreaches := h e List.mem_cons_self
      obtain ⟨names, node⟩ := e
      rw [List.map_cons, readNodes, hrest, entryOf, Common.nodeOf_isRegular, Common.nodeOf_name]
      cases node with
      | file inode content =>
          rw [if_pos (by rfl), Mount.readFile_eq hopens hreaches]
          rfl
      | dir inode dots entries =>
          rw [if_neg (by simp [Node.isDir])]
          rfl

/-- **Every entry is found once, and every file is read once**, each under its path. -/
theorem TempDir.readAll_finds {m : Mount} (htypes : m.KeepsTypes) (hopens : m.Opens) :
    ∃ found, Enumerates m.root found ∧
      Returns (Common.getDirNodesRecursively m m.path) (some (found.map entryOf)) ∧
      ∀ (t : TempDir) (subdir : Bytes), m.path = t.path ++ [47] ++ subdir →
        Returns (t.readAll m subdir) (some (found.filterMap fileOf)) := by
  obtain ⟨found, hfound, hreturns⟩ := Common.returns_getDirNodesRecursively htypes hopens
  refine ⟨found, hfound, hreturns, fun t subdir hpath => ?_⟩
  have hreaches : ∀ e ∈ found, Reaches m.root e.1 e.2 := fun e he =>
    ((hfound.mem_iff e.1 e.2).1 he).2
  have hread := hreturns.map fun nodes => nodes.map (readNodes m m.path)
  rw [Option.map_some, readNodes_eq hopens hreaches] at hread
  obtain ⟨enough, henough⟩ := hread
  refine ⟨enough, fun fuel hfuel => ?_⟩
  rw [readAll, ← hpath]
  exact henough fuel hfuel

/-- The directory of a compile that has left an object file, and coverage notes further down. -/
def workDir : Mount where
  path := Bytes.ofString "/tmp/w/"
  inode := 1
  dots := { dotAt := 1, dotdotAt := 0, parent := 9 }
  entries :=
    [(Bytes.ofString "a.o", .file 2 [1]),
      (Bytes.ofString "sub", .dir 3 { dotAt := 0, dotdotAt := 0, parent := 1 }
        [(Bytes.ofString "b.gcno", .file 4 [2, 3])])]
  wellFormed := by
    refine .dir (by decide) (fun e he => ?_) (fun e he => ?_)
    · rcases List.mem_cons.1 he with rfl | he
      · exact ⟨by decide, by decide, by decide, by decide⟩
      · rw [List.mem_singleton.1 he]
        exact ⟨by decide, by decide, by decide, by decide⟩
    · rcases List.mem_cons.1 he with rfl | he
      · exact .file
      · rw [List.mem_singleton.1 he]
        refine .dir (by decide) (fun e he => ?_) (fun e he => ?_)
        · rw [List.mem_singleton.1 he]
          exact ⟨by decide, by decide, by decide, by decide⟩
        · rw [List.mem_singleton.1 he]
          exact .file
  dType := Common.dTypeOf
  opens := fun _ => true

theorem TempDir.readAll_finds_workDir :
    ∃ found, Enumerates workDir.root found ∧
      Returns (Common.getDirNodesRecursively workDir workDir.path) (some (found.map entryOf)) ∧
      Returns (TempDir.readAll { alive := true, path := Bytes.ofString "/tmp/w" } workDir [])
        (some (found.filterMap fileOf)) := by
  obtain ⟨found, hfound, hnodes, hread⟩ :=
    @TempDir.readAll_finds workDir (fun _ _ _ => rfl) fun _ _ _ => rfl
  exact ⟨found, hfound, hnodes, hread _ _ (by decide)⟩

example : TempDir.readAll { alive := true, path := Bytes.ofString "/tmp/w" } workDir [] 3 =
    some (some [(Bytes.ofString "a.o", [1]), (Bytes.ofString "sub/b.gcno", [2, 3])]) := by
  decide

end Cloud
