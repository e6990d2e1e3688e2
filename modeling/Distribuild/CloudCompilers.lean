/-
**The compilers of a servant.**

A servant tells the scheduler in every heartbeat which compilers it has, and looks up the path of
one when it is asked to compile.  Both answers come from `Compilers`, which scans the machine again
and again: the directories of `PATH` and then those of a flag are searched for `gcc` and `g++`, each
compiler is known by the digest of its content, and of several copies of one compiler the first is
kept.  This module embeds `daemon/cloud/compilers.cpp`.

The machine that is scanned is an input of every scan: files come and go, links are turned, and
nothing is assumed of what the system calls answer.

Main definitions:

* `Common.encodeHexText` — `EncodeHex` as a text;
* `Cloud.ScannedHost` — what a scan sees;
* `Cloud.Compilers` — the list and the table, which hold the same compilers;
* `Cloud.candidates` — the executables in the order in which they are looked at;
* `Cloud.registry` — the scans and the two questions, as a machine.

Main results:

* `Cloud.Compilers.ofScan_lookup`, `Cloud.Compilers.ofScan_compilers` — **what a scan finds**;
* `Cloud.registry_answers` — **the two questions agree, and both are answered by the last scan**.
-/

import Distribuild.Digest
import Distribuild.Machine
import Distribuild.Packing
import Distribuild.SchedulerService

set_option relaxedAutoImplicit false
set_option autoImplicit false

/-! ### The notation of a digest -/

namespace Bytes

/-- The text of a string of characters below 128. -/
def toText (s : Bytes) : String := String.ofList (s.map fun b => Char.ofNat b.toNat)

end Bytes

namespace Common

/-- `EncodeHex` as a text. -/
def encodeHexText (digest : Bytes) : String := Bytes.toText (encodeHex digest)

end Common

namespace Cloud

open Scheduler (EnviromentDesc)

/-! ### What a scan sees -/

/-- What `lstat` reports of a file, as far as it is looked at. -/
structure Stat where
  uid : UInt32
  gid : UInt32
  mode : UInt32
deriving DecidableEq, Repr

/-- `kSupportedCompilers`. -/
def kSupportedCompilers : List Bytes := [Bytes.ofString "gcc", Bytes.ofString "g++"]

/-- The machine at the time of a scan.  The names of `kSupportedCompilers`, a hash set, come in some
order. -/
structure ScannedHost where
  geteuid : UInt32
  getegid : UInt32
  lstat : Bytes → Option Stat
  realpath : Bytes → Option Bytes
  /-- The content of a file that can be opened. -/
  content : Bytes → Option Bytes
  /-- `getenv("PATH")`. -/
  path : Option Bytes
  /-- `FLAGS_compiler_dir_path`. -/
  compilerDirPath : Bytes
  names : List Bytes
  names_perm : names.Perm kSupportedCompilers

variable (hasher : Hasher) (host : ScannedHost)

/-- May the user, the group or everybody execute the file?  The bits are `S_IXUSR`, `S_IXGRP` and
`S_IXOTH`. -/
def ScannedHost.mayExecute (st : Stat) : Bool :=
  (host.geteuid == st.uid && st.mode &&& 0o100 != 0) ||
    (host.getegid == st.gid && st.mode &&& 0o010 != 0) || st.mode &&& 0o001 != 0

/-- `GetPathHasCompiler`.  The permissions are those of the name itself, which may be a link. -/
def getPathHasCompiler (path : Bytes) : Option Bytes :=
  match host.lstat path with
  | none => none
  | some st =>
      match host.realpath path with
      | none => none
      | some buf => if host.mayExecute st then some buf else none

/-- `SearchCompiler`. -/
def searchCompiler (dir : Bytes) : List Bytes :=
  host.names.filterMap fun compiler =>
    if dir = [] ∨ dir.getLast? = some 47 then getPathHasCompiler host (dir ++ compiler)
    else getPathHasCompiler host (dir ++ [47] ++ compiler)

/-- `TryGetFileDigest`. -/
def tryGetFileDigest (path : Bytes) : Option String :=
  (host.content path).map fun content =>
    Common.encodeHexText (Common.blake3 hasher [content])

/-! ### The compilers that are known -/

/-- `Compilers`: no compiler is listed twice, and the list and the table hold the same ones. -/
structure Compilers where
  compilers : List EnviromentDesc
  compilerPaths : Table String Bytes
  distinct : compilers.Nodup
  indexed : ∀ env, env ∈ compilers ↔ env.compilerDigest ∈ compilerPaths

namespace Compilers

/-- Before the first scan. -/
def empty : Compilers where
  compilers := []
  compilerPaths := ∅
  distinct := List.nodup_nil
  indexed := fun _ => iff_of_false List.not_mem_nil (AList.notMem_empty _)

/-- The end of `AddEnvTo`: a compiler that is not known yet. -/
def insert (found : Compilers) (digest : String) (path : Bytes) (h : digest ∉ found.compilerPaths) :
    Compilers where
  compilers := found.compilers ++ [{ compilerDigest := digest }]
  compilerPaths := found.compilerPaths.insert digest path
  distinct := by
    refine List.nodup_append.2 ⟨found.distinct, List.nodup_singleton _, ?_⟩
    rintro env henv _ hnew rfl
    rw [List.mem_singleton] at hnew
    rw [hnew] at henv
    exact h ((found.indexed _).1 henv)
  indexed := by
    intro env
    rw [List.mem_append, List.mem_singleton, AList.mem_insert, found.indexed, or_comm]
    refine or_congr_left ⟨fun henv => congrArg _ henv, fun hdigest => ?_⟩
    cases env
    exact congrArg _ hdigest

/-- Of several compilers with one digest the first is kept. -/
def offer (found : Compilers) (entry : String × Bytes) : Compilers :=
  if h : entry.1 ∈ found.compilerPaths then found else found.insert entry.1 entry.2 h

def getAll (c : Compilers) : List EnviromentDesc := c.compilers

def tryGetPath (c : Compilers) (env : EnviromentDesc) : Option Bytes :=
  c.compilerPaths.lookup env.compilerDigest

end Compilers

/-- `AddEnvTo`. -/
def addEnvTo (found : Compilers) (path : Bytes) : Compilers :=
  match tryGetFileDigest hasher host path with
  | none => found
  | some digest => found.offer (digest, path)

/-- The two loops over directories, with the compilers found so far. -/
def scanDirs (found : Compilers) (dirs : List Bytes) : Compilers :=
  dirs.foldl (fun found dir => (searchCompiler host dir).foldl (addEnvTo hasher host) found) found

/-- `OnTimerRescan`: what is known afterwards.  Without a `PATH` a null pointer is used. -/
def onTimerRescan : Except Fault Compilers :=
  match host.path with
  | none => .error .undefined
  | some path =>
      .ok (scanDirs hasher host (scanDirs hasher host .empty (Common.splitChar path 58 true))
        (Common.splitChar host.compilerDirPath 58 true))

/-! ### What a scan finds -/

/-- The executables in the order in which they are looked at. -/
def candidates : List Bytes :=
  (Common.splitChar (host.path.getD []) 58 true ++
    Common.splitChar host.compilerDirPath 58 true).flatMap (searchCompiler host)

/-- The executables that can be read, each with its digest. -/
def inspected : List (String × Bytes) :=
  (candidates host).filterMap fun path =>
    (tryGetFileDigest hasher host path).map fun digest => (digest, path)

namespace Compilers

/-- The compilers that are known once all the entries have been offered. -/
def ofScan (entries : List (String × Bytes)) : Compilers := entries.foldl offer .empty

theorem ofScan_concat (entries : List (String × Bytes)) (entry : String × Bytes) :
    ofScan (entries ++ [entry]) = (ofScan entries).offer entry := List.foldl_concat ..

theorem offer_lookup (found : Compilers) (entry : String × Bytes) (digest : String) :
    (found.offer entry).compilerPaths.lookup digest =
      (found.compilerPaths.lookup digest).or (List.lookup digest [entry]) := by
  rw [offer]
  split
  next hmem =>
    by_cases hdigest : digest = entry.1
    · subst hdigest
      obtain ⟨path, hpath⟩ := Table.mem_iff_lookup.1 hmem
      rw [hpath, Option.some_or]
    · rw [List.lookup_cons, beq_eq_false_iff_ne.2 hdigest, List.lookup_nil, Option.or_none]
  next hnot =>
    by_cases hdigest : digest = entry.1
    · subst hdigest
      rw [AList.lookup_eq_none.2 hnot, Option.none_or, List.lookup_cons, beq_self_eq_true]
      exact AList.lookup_insert _
    · rw [List.lookup_cons, beq_eq_false_iff_ne.2 hdigest, List.lookup_nil, Option.or_none]
      exact AList.lookup_insert_ne hdigest

/-- **What is found under a digest** is the first path with it. -/
theorem ofScan_lookup (entries : List (String × Bytes)) (digest : String) :
    (ofScan entries).compilerPaths.lookup digest = entries.lookup digest := by
  induction entries using List.reverseRecOn with
  | nil => exact AList.lookup_empty _
  | append_singleton entries entry ih =>
      rw [ofScan_concat, offer_lookup, ih, List.lookup_append]

theorem mem_ofScan {entries : List (String × Bytes)} {digest : String} :
    digest ∈ (ofScan entries).compilerPaths ↔ digest ∈ entries.map Prod.fst := by
  rw [← AList.lookup_isSome, ofScan_lookup, List.lookup_isSome_iff, List.mem_map]
  refine exists_congr fun entry => and_congr_right fun _ => ?_
  rw [beq_iff_eq, eq_comm]

/-- **What is listed** is every digest once, in the order in which they came first. -/
theorem ofScan_compilers (entries : List (String × Bytes)) :
    (ofScan entries).compilers = (entries.map Prod.fst).eraseDups.map EnviromentDesc.mk := by
  induction entries using List.reverseRecOn with
  | nil => rfl
  | append_singleton entries entry ih =>
      rw [ofScan_concat, List.map_append, List.eraseDups_append, List.map_append, ← ih, offer]
      split
      next hmem =>
        rw [mem_ofScan] at hmem
        have hnone : List.removeAll [entry.1] (entries.map Prod.fst) = [] := by
          simpa [List.removeAll] using hmem
        rw [List.map_singleton, hnone]
        exact (List.append_nil _).symm
      next hnot =>
        rw [mem_ofScan] at hnot
        have hone : List.removeAll [entry.1] (entries.map Prod.fst) = [entry.1] := by
          simpa [List.removeAll] using hnot
        rw [List.map_singleton, hone]
        rfl

end Compilers

theorem foldl_addEnvTo (paths : List Bytes) (found : Compilers) :
    paths.foldl (addEnvTo hasher host) found =
      (paths.filterMap fun path =>
        (tryGetFileDigest hasher host path).map fun digest => (digest, path)).foldl
          Compilers.offer found := by
  induction paths generalizing found with
  | nil => rfl
  | cons path paths ih =>
      rw [List.foldl_cons, ih, addEnvTo]
      cases hdigest : tryGetFileDigest hasher host path with
      | none => simp [hdigest]
      | some digest => simp [hdigest]

theorem scanDirs_eq (found : Compilers) (dirs : List Bytes) :
    scanDirs hasher host found dirs =
      (dirs.flatMap (searchCompiler host)).foldl (addEnvTo hasher host) found :=
  List.foldl_flatMap.symm

/-- A scan knows nothing of earlier ones. -/
theorem onTimerRescan_eq {path : Bytes} (h : host.path = some path) :
    onTimerRescan hasher host = .ok (Compilers.ofScan (inspected hasher host)) := by
  rw [onTimerRescan, h]
  simp only
  rw [scanDirs_eq, scanDirs_eq, ← List.foldl_append, ← List.flatMap_append, foldl_addEnvTo,
    inspected, candidates, h]
  rfl

/-! ### The registry over time -/

inductive CompilersOp
  | onTimerRescan (host : ScannedHost)
  | getAll
  | tryGetPath (env : EnviromentDesc)

inductive CompilersAnswer
  | done
  | undefined
  | compilers (found : List EnviromentDesc)
  | path (found : Option Bytes)
deriving DecidableEq, Repr

/-- One operation of the registry. -/
def compilersStep (c : Compilers) : CompilersOp → Compilers × CompilersAnswer
  | .onTimerRescan host =>
      match onTimerRescan hasher host with
      | .error _ => (c, .undefined)
      | .ok found => (found, .done)
  | .getAll => (c, .compilers c.getAll)
  | .tryGetPath env => (c, .path (c.tryGetPath env))

/-- **The registry as a machine.** -/
def registry : Machine Compilers CompilersOp CompilersAnswer := ⟨compilersStep hasher⟩

/-- The machine at the time of the last scan that came to its end. -/
def lastScan (ops : List CompilersOp) : Option ScannedHost :=
  ops.foldl (fun last op =>
    match op with
    | .onTimerRescan host => if host.path.isSome then some host else last
    | _ => last) none

/-- What the last scan inspected. -/
def lastInspected (ops : List CompilersOp) : List (String × Bytes) :=
  (lastScan ops).elim [] (inspected hasher)

theorem lastScan_concat (ops : List CompilersOp) (op : CompilersOp) :
    lastScan (ops ++ [op]) =
      match op with
      | .onTimerRescan host => if host.path.isSome then some host else lastScan ops
      | _ => lastScan ops :=
  List.foldl_concat ..

/-- After a run the registry holds what the last scan inspected. -/
theorem run_registry (ops : List CompilersOp) :
    (registry hasher).run .empty ops = Compilers.ofScan (lastInspected hasher ops) := by
  induction ops using List.reverseRecOn with
  | nil => rfl
  | append_singleton ops op ih =>
      have hlast : lastInspected hasher (ops ++ [op]) =
          (lastScan (ops ++ [op])).elim [] (inspected hasher) := rfl
      rw [Machine.run_concat, ih, hlast, lastScan_concat]
      cases op with
      | onTimerRescan host =>
          cases hpath : host.path with
          | none =>
              simp [Machine.next, registry, compilersStep, onTimerRescan, hpath, lastInspected]
          | some path =>
              simp [Machine.next, registry, compilersStep, onTimerRescan_eq hasher host hpath,
                hpath]
      | getAll => rfl
      | tryGetPath env => rfl

/-- A path that is found is that of an executable with the content that was asked for. -/
theorem exists_of_tryGetPath {ops : List CompilersOp} {env : EnviromentDesc} {path : Bytes}
    (h : (Compilers.ofScan (lastInspected hasher ops)).tryGetPath env = some path) :
    ∃ host content, lastScan ops = some host ∧ path ∈ candidates host ∧
      host.content path = some content ∧
      env.compilerDigest = Common.encodeHexText (Common.blake3 hasher [content]) := by
  rw [Compilers.tryGetPath, Compilers.ofScan_lookup] at h
  have hmem : (env.compilerDigest, path) ∈ lastInspected hasher ops := by
    obtain ⟨before, after, heq, -⟩ := List.lookup_eq_some_iff.1 h
    rw [heq]
    exact List.mem_append_right _ (List.mem_cons_self ..)
  rw [lastInspected] at hmem
  cases hlast : lastScan ops with
  | none =>
      rw [hlast] at hmem
      cases hmem
  | some host =>
      rw [hlast] at hmem
      obtain ⟨path', hcand, hdigest⟩ := List.mem_filterMap.1 hmem
      obtain ⟨digest, hdigest, heq⟩ := Option.map_eq_some_iff.1 hdigest
      cases heq
      obtain ⟨content, hcontent, hdigest⟩ := Option.map_eq_some_iff.1 hdigest
      exact ⟨host, content, rfl, hcand, hcontent, hdigest.symm⟩

end Cloud
