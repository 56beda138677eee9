import Dora.Lib.Text
import Dora.Message.Id

/-!
# Log rotation (`binaries/daemon/src/log.rs`)

A node logs to one file. When it has grown too large it becomes the rotated file with index 1, those
that were rotated before move up by one, and what is beyond the limit is deleted. A file belongs to a
node by its name alone, and node ids may contain dots.
-/

namespace Dora.Log

open Std Lib

abbrev Segment := List String

abbrev Dir := TreeMap String Segment

section Paths

variable (dataflowDir : String) (nodeId : NodeId)

def logPath : String := dataflowDir ++ "/log_" ++ nodeId.name ++ ".jsonl"

def logPathRotated (index : Nat) : String :=
  dataflowDir ++ "/log_" ++ nodeId.name ++ "." ++ index.repr ++ ".jsonl"

end Paths

section Rotation

variable (name : Nat → String)

def pruneStale : Nat → Nat → Dir → Dir
  | 0, _, dir => dir
  | fuel + 1, stale, dir =>
    if dir.contains (name stale) then pruneStale fuel ((stale + 1) % 2 ^ 32) (dir.erase (name stale)) else dir

/-- `std::fs::rename`, if there is a file to rename. -/
def renameExisting (dir : Dir) (source target : String) : Dir :=
  match dir[source]? with
  | some segment => (dir.erase source).insert target segment
  | none => dir

/-- The loop that moves the files with the indices from `i` down to 1 up by one. -/
def shiftUp : Nat → Dir → Dir
  | 0, dir => dir
  | i + 1, dir => shiftUp i (renameExisting dir (name (i + 1)) (name (i + 2)))

/-- The first part of `rotate_log_files`, which deletes and moves the rotated files. The index after the
limit is computed in `u32`. -/
def makeRoom (limit : Nat) (dir : Dir) : Dir :=
  let dir := dir.erase (name limit)
  let dir := pruneStale name dir.size ((limit + 1) % 2 ^ 32) dir
  shiftUp name (limit - 1) dir

end Rotation

def rotateLogFiles (dataflowDir : String) (dir : Dir) (nodeId : NodeId) (maxFiles : UInt32) : Dir :=
  let dir := makeRoom (logPathRotated dataflowDir nodeId) maxFiles.toNat dir
  let current := logPath dataflowDir nodeId
  if 1 ≤ maxFiles.toNat then renameExisting dir current (logPathRotated dataflowDir nodeId 1)
  else dir.erase current

inductive LogOp where
  /-- The log is created, or emptied, when the node is spawned and after a rotation. -/
  | create (nodeId : NodeId)
  | write (nodeId : NodeId) (line : String)
  | rotate (nodeId : NodeId) (maxFiles : UInt32)

def LogOp.node : LogOp → NodeId
  | .create n | .write n _ | .rotate n _ => n

def step (dataflowDir : String) (dir : Dir) : LogOp → Dir
  | .create n => dir.insert (logPath dataflowDir n) []
  | .write n line => dir.insert (logPath dataflowDir n) (dir.getD (logPath dataflowDir n) [] ++ [line])
  | .rotate n maxFiles => rotateLogFiles dataflowDir dir n maxFiles

section Rotation

variable {name : Nat → String} {dir : Dir} {f : String}

theorem getElem?_erase_file (dir : Dir) (f g : String) :
    (dir.erase g)[f]? = if f = g then none else dir[f]? := by
  simp only [TreeMap.getElem?_erase, Std.compare_eq_iff_eq, @eq_comm _ g]

theorem getElem?_insert_file (dir : Dir) (f g : String) (segment : Segment) :
    (dir.insert g segment)[f]? = if f = g then some segment else dir[f]? := by
  simp only [TreeMap.getElem?_insert, Std.compare_eq_iff_eq, @eq_comm _ g]

theorem getElem?_renameExisting {source target : String}
    (hfree : dir[source]? = none → dir[target]? = none) :
    (renameExisting dir source target)[f]? =
      if f = target then dir[source]? else if f = source then none else dir[f]? := by
  unfold renameExisting
  cases hsource : dir[source]? with
  | some segment => simp only [getElem?_insert_file, getElem?_erase_file]
  | none =>
    dsimp only
    by_cases htarget : f = target
    · rw [if_pos htarget, htarget, hfree hsource]
    · by_cases hf : f = source
      · rw [if_neg htarget, if_pos hf, hf, hsource]
      · rw [if_neg htarget, if_neg hf]

section Other

variable (hf : ∀ i < 2 ^ 32, f ≠ name i)

include hf

theorem pruneStale_other (fuel : Nat) {stale : Nat} (hstale : stale < 2 ^ 32) (dir : Dir) :
    (pruneStale name fuel stale dir)[f]? = dir[f]? := by
  induction fuel generalizing stale dir with
  | zero => rfl
  | succ fuel ih =>
    unfold pruneStale
    split
    · rw [ih (Nat.mod_lt _ (by decide)), getElem?_erase_file, if_neg (hf stale hstale)]
    · rfl

theorem shiftUp_other {i : Nat} (hi : i + 1 < 2 ^ 32) (dir : Dir) : (shiftUp name i dir)[f]? = dir[f]? := by
  induction i generalizing dir with
  | zero => rfl
  | succ i ih =>
    rw [shiftUp, ih (by omega)]
    unfold renameExisting
    split
    · rw [getElem?_insert_file, if_neg (hf _ (by omega)), getElem?_erase_file, if_neg (hf _ (by omega))]
    · rfl

theorem makeRoom_other {limit : Nat} (hlimit : limit < 2 ^ 32) (dir : Dir) :
    (makeRoom name limit dir)[f]? = dir[f]? := by
  unfold makeRoom
  rw [shiftUp_other hf (by omega), pruneStale_other hf _ (Nat.mod_lt _ (by decide)), getElem?_erase_file,
    if_neg (hf limit hlimit)]

end Other

variable (hinj : Function.Injective name)

include hinj

/-- Where the indices are contiguous, everything from `j` on is deleted. -/
theorem pruneStale_name {fuel j k : Nat} (hfuel : dir.size ≤ fuel) (hj : 0 < j) (hk : k < 2 ^ 32)
    (hj' : j ≤ 2 ^ 32) (hzero : dir[name 0]? = none)
    (hpresent : ∀ i, j ≤ i → i < 2 ^ 32 → (dir[name i]? = none ↔ k < i)) {i : Nat} (hi : i < 2 ^ 32) :
    (pruneStale name fuel (j % 2 ^ 32) dir)[name i]? = if j ≤ i then none else dir[name i]? := by
  induction fuel generalizing j dir with
  | zero =>
    have hempty : dir.isEmpty = true := by
      rw [TreeMap.isEmpty_eq_size_eq_zero, beq_iff_eq]
      omega
    rw [pruneStale, TreeMap.getElem?_of_isEmpty hempty, ite_self]
  | succ fuel ih =>
    unfold pruneStale
    by_cases hle : j ≤ k
    · have hmod : j % 2 ^ 32 = j := Nat.mod_eq_of_lt (by omega)
      have hmem : name j ∈ dir := by
        rw [TreeMap.mem_iff_isSome_getElem?, Option.isSome_iff_ne_none, ne_eq, hpresent j le_rfl (by omega)]
        omega
      have herase {i : Nat} (hi : i ≠ j) : (dir.erase (name j))[name i]? = dir[name i]? := by
        rw [getElem?_erase_file, if_neg fun h => hi (hinj h)]
      rw [hmod, if_pos (TreeMap.contains_iff_mem.mpr hmem), ih]
      · split
        next => rw [if_pos (by omega)]
        next hnot =>
          by_cases heq : i = j
          · rw [heq, getElem?_erase_file, if_pos rfl, if_pos le_rfl]
          · rw [herase heq, if_neg (by omega)]
      · rw [TreeMap.size_erase, if_pos (TreeMap.contains_iff_mem.mpr hmem)]
        omega
      · omega
      · omega
      · rw [herase (by omega), hzero]
      · intro i hi hbound
        rw [herase (by omega), hpresent i (by omega) hbound]
    · have hgap : dir[name (j % 2 ^ 32)]? = none := by
        by_cases hlast : j = 2 ^ 32
        · rw [hlast]
          exact hzero
        · rw [Nat.mod_eq_of_lt (by omega), hpresent j le_rfl (by omega)]
          omega
      have hnot : ¬ dir.contains (name (j % 2 ^ 32)) = true := by
        rw [TreeMap.contains_iff_mem, TreeMap.mem_iff_isSome_getElem?, hgap]
        exact Bool.false_ne_true
      rw [if_neg hnot]
      split
      next hle => exact (hpresent i hle hi).mpr (by omega)
      next => rfl

/-- The files up to the index `k` move up by one, if nothing stands above them. -/
theorem shiftUp_name (k : Nat) (hfree : dir[name (k + 1)]? = none) (i : Nat) :
    (shiftUp name k dir)[name i]? = if i = 1 ∧ 0 < k then none
      else if 2 ≤ i ∧ i ≤ k + 1 then dir[name (i - 1)]? else dir[name i]? := by
  induction k generalizing dir with
  | zero => rw [shiftUp, if_neg (by omega), if_neg (by omega)]
  | succ k ih =>
    have hmove (i : Nat) : (renameExisting dir (name (k + 1)) (name (k + 2)))[name i]? =
        if i = k + 2 then dir[name (k + 1)]? else if i = k + 1 then none else dir[name i]? := by
      rw [getElem?_renameExisting fun _ => hfree]
      simp only [hinj.eq_iff]
    rw [shiftUp, ih (by rw [hmove, if_neg (by omega), if_pos rfl])]
    simp only [hmove]
    by_cases htop : i = k + 2
    · subst htop
      rw [if_neg (by omega), if_neg (by omega), if_pos rfl, if_neg (by omega), if_pos (by omega)]
      rfl
    · split_ifs <;> first | rfl | omega

theorem makeRoom_name {files : Nat → Option Segment} (hfiles : ∀ i < 2 ^ 32, dir[name i]? = files i)
    (hzero : files 0 = none) {k : Nat} (hpresent : ∀ i, files (i + 1) = none ↔ k ≤ i) (hk : k < 2 ^ 32)
    {limit i : Nat} (hlimit : limit < 2 ^ 32) (hi : i < 2 ^ 32) :
    (makeRoom name limit dir)[name i]? = if 2 ≤ i ∧ i ≤ limit then files (i - 1) else none := by
  have herased {i : Nat} (hi : i < 2 ^ 32) :
      (dir.erase (name limit))[name i]? = if i = limit then none else files i := by
    simp only [getElem?_erase_file, hinj.eq_iff, hfiles i hi]
  have hpruned {i : Nat} (hi : i < 2 ^ 32) : (pruneStale name (dir.erase (name limit)).size
      ((limit + 1) % 2 ^ 32) (dir.erase (name limit)))[name i]? = if i < limit then files i else none := by
    rw [pruneStale_name hinj le_rfl (Nat.succ_pos limit) hk hlimit _ _ hi, herased hi]
    · split_ifs <;> first | rfl | omega
    · rw [herased (by decide), hzero, ite_self]
    · intro i hle hlt
      obtain ⟨i, rfl⟩ : ∃ m, i = m + 1 := ⟨i - 1, by omega⟩
      rw [herased hlt, if_neg (by omega), hpresent]
      omega
  unfold makeRoom
  dsimp only
  rw [shiftUp_name hinj _ (by rw [hpruned (by omega), if_neg (by omega)]), hpruned (by omega), hpruned hi]
  obtain rfl | hpos := Nat.eq_zero_or_pos i
  · simp [hzero]
  · split_ifs <;> first | rfl | omega

end Rotation

section Names

variable {dataflowDir : String} {n n' : NodeId} {i j : Nat}

theorem logPath_inj (h : logPath dataflowDir n = logPath dataflowDir n') : n = n' := by
  have hname := (String.append_right_inj _).mp ((String.append_left_inj _).mp h)
  exact NodeId.name_injective hname

theorem logPathRotated_inj (h : logPathRotated dataflowDir n i = logPathRotated dataflowDir n' j) :
    n = n' ∧ i = j := by
  have hname : n.name ++ ("." ++ i.repr) = n'.name ++ ("." ++ j.repr) := by
    have := (String.append_left_inj _).mp h
    simpa only [String.append_assoc, String.append_right_inj] using this
  -- the last dot of the name separates the index
  have hlist := congrArg (List.reverse ∘ String.toList) hname
  simp only [Function.comp_apply, String.toList_append, List.reverse_append, List.append_assoc] at hlist
  have hdot (i : Nat) : '.' ∉ (Nat.repr i).toList.reverse := fun h =>
    not_mem_natRepr rfl i (List.mem_reverse.mp h)
  obtain ⟨hindex, hnode⟩ := append_sep_inj (hdot i) (hdot j) hlist
  refine ⟨NodeId.name_injective (String.toList_injective (List.reverse_injective hnode)), ?_⟩
  exact Nat.repr_injective (String.toList_injective (List.reverse_injective hindex))

theorem logPath_eq_rotated (h : logPath dataflowDir n' = logPathRotated dataflowDir n i) :
    n'.name = n.name ++ "." ++ i.repr := by
  have := (String.append_left_inj _).mp h
  simpa only [String.append_assoc, String.append_right_inj] using this

theorem logPath_ne_rotated (i : Nat) : logPath dataflowDir n ≠ logPathRotated dataflowDir n i := by
  intro heq
  have hlen := congrArg String.length (logPath_eq_rotated heq)
  rw [String.length_append, String.length_append] at hlen
  have hdot : ".".length = 1 := rfl
  omega

end Names

/-- The log of one node: the segment it writes, the segments it has finished, newest first, and how many
of these are kept. -/
structure NodeLog where
  current : Option Segment := none
  closed : List Segment := []
  kept : Nat := 0

namespace NodeLog

def apply (log : NodeLog) : LogOp → NodeLog
  | .create _ => { log with current := some [] }
  | .write _ line => { log with current := some (log.current.getD [] ++ [line]) }
  | .rotate _ maxFiles =>
    { current := none
      closed := log.current.toList ++ log.closed
      kept := min maxFiles.toNat (log.kept + 1) }

/-- The file with index `i`: the first is the newest of those that are kept. -/
def fileAt (log : NodeLog) : Nat → Option Segment
  | 0 => none
  | i + 1 => (log.closed.take log.kept)[i]?

theorem fileAt_zero (log : NodeLog) : log.fileAt 0 = none := rfl

theorem fileAt_eq_none (log : NodeLog) (i : Nat) :
    log.fileAt (i + 1) = none ↔ (log.closed.take log.kept).length ≤ i :=
  List.getElem?_eq_none_iff

theorem fileAt_rotate {log : NodeLog} {segment : Segment} (hcurrent : log.current = some segment) (n : NodeId)
    (maxFiles : UInt32) (i : Nat) : (log.apply (.rotate n maxFiles)).fileAt i =
      if i = 0 ∨ maxFiles.toNat < i then none else if i = 1 then some segment else log.fileAt (i - 1) := by
  match i with
  | 0 => rfl
  | 1 =>
    simp only [apply, fileAt, hcurrent, Option.toList_some, List.singleton_append, List.getElem?_take,
      List.getElem?_cons_zero, lt_min_iff]
    by_cases hlimit : maxFiles.toNat < 1
    · rw [if_neg (by omega), if_pos (.inr hlimit)]
    · rw [if_pos (by omega), if_neg (by omega), if_pos trivial]
  | i + 2 =>
    simp only [apply, fileAt, hcurrent, Option.toList_some, List.singleton_append, List.getElem?_take,
      List.getElem?_cons_succ, Nat.add_one_sub_one, lt_min_iff, Nat.add_lt_add_iff_right]
    by_cases hlimit : maxFiles.toNat < i + 2
    · rw [if_neg (by omega), if_pos (.inr hlimit)]
    · rw [if_neg (by omega : ¬ (i + 2 = 0 ∨ maxFiles.toNat < i + 2)), if_neg (by omega : ¬ i + 2 = 1)]
      simp only [(by omega : i + 1 < maxFiles.toNat), true_and]

end NodeLog

section Runs

variable (dataflowDir : String)

def Owns (n : NodeId) (f : String) : Prop :=
  f = logPath dataflowDir n ∨ ∃ i < 2 ^ 32, f = logPathRotated dataflowDir n i

structure Represents (dir : Dir) (n : NodeId) (log : NodeLog) : Prop where
  current : dir[logPath dataflowDir n]? = log.current
  rotated : ∀ i < 2 ^ 32, dir[logPathRotated dataflowDir n i]? = log.fileAt i
  bounded : log.kept < 2 ^ 32

def Apart (ids : Set NodeId) : Prop :=
  ∀ n ∈ ids, ∀ n' ∈ ids, ∀ i < 2 ^ 32, n'.name ≠ n.name ++ "." ++ Nat.repr i

def Finds (dir : Dir) : LogOp → Prop
  | .rotate n _ => logPath dataflowDir n ∈ dir
  | _ => True

def AllFind : Dir → List LogOp → Prop
  | _, [] => True
  | dir, op :: ops => Finds dataflowDir dir op ∧ AllFind (step dataflowDir dir op) ops

variable {dataflowDir} {dir : Dir} {n n' : NodeId} {log : NodeLog} {f : String}

theorem Represents.congr {dir' : Dir} (h : Represents dataflowDir dir n log)
    (hsame : ∀ f, Owns dataflowDir n f → dir'[f]? = dir[f]?) : Represents dataflowDir dir' n log :=
  ⟨(hsame _ (.inl rfl)).trans h.current, fun i hi => (hsame _ (.inr ⟨i, hi, rfl⟩)).trans (h.rotated i hi),
    h.bounded⟩

theorem not_owns_of_apart {ids : Set NodeId} (hapart : Apart ids) (hn : n ∈ ids) (hn' : n' ∈ ids)
    (hne : n' ≠ n) (h : Owns dataflowDir n' f) : ¬ Owns dataflowDir n f := by
  rintro (rfl | ⟨i, hi, rfl⟩)
  · obtain h | ⟨j, hj, h⟩ := h
    · exact hne (logPath_inj h).symm
    · exact hapart n' hn' n hn j hj (logPath_eq_rotated h)
  · obtain h | ⟨j, hj, h⟩ := h
    · exact hapart n hn n' hn' i hi (logPath_eq_rotated h.symm)
    · exact hne (logPathRotated_inj h).1.symm

theorem step_other {op : LogOp} (hf : ¬ Owns dataflowDir op.node f) :
    (step dataflowDir dir op)[f]? = dir[f]? := by
  have hcurrent : f ≠ logPath dataflowDir op.node := fun h => hf (.inl h)
  have hrotated : ∀ i < 2 ^ 32, f ≠ logPathRotated dataflowDir op.node i := fun i hi h => hf (.inr ⟨i, hi, h⟩)
  cases op with
  | create n | write n line => exact (getElem?_insert_file dir f _ _).trans (if_neg hcurrent)
  | rotate n maxFiles =>
    have hsame := makeRoom_other hrotated maxFiles.toNat_lt dir
    dsimp only [LogOp.node] at hcurrent hrotated
    dsimp only [step, rotateLogFiles]
    split
    · unfold renameExisting
      split
      · rw [getElem?_insert_file, if_neg (hrotated 1 (by decide)), getElem?_erase_file, if_neg hcurrent]
        exact hsame
      · exact hsame
    · rw [getElem?_erase_file, if_neg hcurrent]
      exact hsame

theorem Represents.rotate {maxFiles : UInt32} {segment : Segment} (h : Represents dataflowDir dir n log)
    (hcurrent : log.current = some segment) :
    Represents dataflowDir (rotateLogFiles dataflowDir dir n maxFiles) n
      (log.apply (.rotate n maxFiles)) := by
  have hinj : Function.Injective (logPathRotated dataflowDir n) := fun i j h => (logPathRotated_inj h).2
  have hapart : ∀ i, logPath dataflowDir n ≠ logPathRotated dataflowDir n i := logPath_ne_rotated
  have hlimit := maxFiles.toNat_lt
  have hroom {i : Nat} (hi : i < 2 ^ 32) := makeRoom_name hinj h.rotated log.fileAt_zero log.fileAt_eq_none
    ((List.length_take_le _ _).trans_lt h.bounded) hlimit hi
  have hkept := (makeRoom_other (fun i _ => hapart i) hlimit dir).trans (h.current.trans hcurrent)
  refine ⟨?_, fun i hi => ?_, (min_le_left _ _).trans_lt hlimit⟩
  · unfold rotateLogFiles
    dsimp only
    split_ifs
    · rw [getElem?_renameExisting fun hnone => absurd (hnone.symm.trans hkept) nofun, if_neg (hapart 1),
        if_pos rfl]
      rfl
    · rw [getElem?_erase_file, if_pos rfl]
      rfl
  · rw [NodeLog.fileAt_rotate hcurrent]
    unfold rotateLogFiles
    dsimp only
    split
    next hpos =>
      rw [getElem?_renameExisting fun hnone => absurd (hnone.symm.trans hkept) nofun, hkept,
        if_neg (hapart i).symm, hroom hi]
      simp only [hinj.eq_iff]
      split_ifs <;> first | rfl | omega
    next hzero =>
      rw [getElem?_erase_file, if_neg (hapart i).symm, hroom hi, if_neg (by omega), if_pos (by omega)]

theorem Represents.step {op : LogOp} (h : Represents dataflowDir dir op.node log)
    (hfinds : Finds dataflowDir dir op) :
    Represents dataflowDir (step dataflowDir dir op) op.node (log.apply op) := by
  have hinsert (n : NodeId) (h : Represents dataflowDir dir n log) (segment : Segment) :
      Represents dataflowDir (dir.insert (logPath dataflowDir n) segment) n
        { log with current := some segment } := by
    refine ⟨(getElem?_insert_file dir _ _ _).trans (if_pos rfl), fun i hi => ?_, h.bounded⟩
    rw [getElem?_insert_file, if_neg (logPath_ne_rotated i).symm]
    exact h.rotated i hi
  cases op with
  | create n => exact hinsert n h []
  | write n line =>
    have hlines : log.current.getD [] = dir.getD (logPath dataflowDir n) [] := by
      rw [TreeMap.getD_eq_getD_getElem?, ← h.current]
      rfl
    dsimp only [NodeLog.apply]
    rw [hlines]
    exact hinsert n h _
  | rotate n maxFiles =>
    obtain ⟨segment, hsegment⟩ := Option.isSome_iff_exists.mp
      (TreeMap.mem_iff_isSome_getElem?.mp hfinds)
    exact h.rotate (h.current.symm.trans hsegment)

def record (logs : NodeId → NodeLog) (op : LogOp) : NodeId → NodeLog :=
  Function.update logs op.node ((logs op.node).apply op)

theorem represents_run {ids : Set NodeId} (hapart : Apart ids) {logs : NodeId → NodeLog}
    (hstart : ∀ n ∈ ids, Represents dataflowDir dir n (logs n)) (ops : List LogOp)
    (hops : ∀ op ∈ ops, op.node ∈ ids) (hfind : AllFind dataflowDir dir ops) :
    ∀ n ∈ ids, Represents dataflowDir (ops.foldl (Log.step dataflowDir) dir) n (ops.foldl record logs n) := by
  induction ops generalizing dir logs with
  | nil => exact hstart
  | cons op ops ih =>
    have hop := hops op List.mem_cons_self
    refine ih (fun n hn => ?_) (fun op' h => hops op' (List.mem_cons_of_mem op h)) hfind.2
    unfold record
    by_cases hne : n = op.node
    · subst hne
      rw [Function.update_self]
      exact (hstart _ hn).step hfind.1
    · rw [Function.update_of_ne hne]
      exact (hstart n hn).congr fun f hf => step_other (not_owns_of_apart hapart hop hn hne hf)

/-- As long as no node is called as another one with an index, and a rotation finds a log to rotate, the
files of every node are its current log and the newest of its finished segments, the newest first; as
many of them as the last limit allows and were there. No rotation touches the files of another node. -/
theorem rotation_stays_within_node {ids : Set NodeId} (hapart : Apart ids) {logs : NodeId → NodeLog}
    (hstart : ∀ n ∈ ids, Represents dataflowDir dir n (logs n)) (ops : List LogOp)
    (hops : ∀ op ∈ ops, op.node ∈ ids) (hfind : AllFind dataflowDir dir ops) :
    (∀ n ∈ ids, Represents dataflowDir (ops.foldl (Log.step dataflowDir) dir) n (ops.foldl record logs n)) ∧
    ∀ before n maxFiles after, ops = before ++ .rotate n maxFiles :: after →
      ∀ n' ∈ ids, n' ≠ n → ∀ f, Owns dataflowDir n' f →
        ((before ++ [.rotate n maxFiles]).foldl (Log.step dataflowDir) dir)[f]? =
          (before.foldl (Log.step dataflowDir) dir)[f]? := by
  refine ⟨represents_run hapart hstart ops hops hfind, ?_⟩
  intro before n maxFiles after heq n' hn' hne f hf
  have hn : n ∈ ids := hops (.rotate n maxFiles) (by simp [heq])
  rw [List.foldl_append]
  change (Log.step dataflowDir _ (.rotate n maxFiles))[f]? = _
  exact step_other (not_owns_of_apart hapart hn hn' hne hf)

/-- With the limit 1 the camera keeps its last finished segment, and the log of the planner stands. -/
theorem rotation_of_camera :
    let ops := [.create ⟨"camera"⟩, .write ⟨"camera"⟩ "a", .create ⟨"plan"⟩, .write ⟨"plan"⟩ "x",
      .rotate ⟨"camera"⟩ 1, .write ⟨"camera"⟩ "b", .rotate ⟨"camera"⟩ 1]
    (ops.foldl (Log.step "run") ∅)[logPathRotated "run" ⟨"camera"⟩ 1]? = some ["b"] ∧
      (ops.foldl (Log.step "run") ∅)[logPath "run" ⟨"plan"⟩]? = some ["x"] := by
  intro ops
  have hapart : Apart {⟨"camera"⟩, ⟨"plan"⟩} := by
    intro n hn n' hn' i hi heq
    have hdot : '.' ∈ n'.name.toList := by simp [heq]
    obtain rfl | rfl := hn' <;> revert hdot <;> decide
  have hstart : ∀ n ∈ ({⟨"camera"⟩, ⟨"plan"⟩} : Set NodeId), Represents "run" ∅ n {} := fun n _ =>
    ⟨by simp, fun i _ => by cases i <;> simp [NodeLog.fileAt], by decide⟩
  have hrun := (rotation_stays_within_node hapart hstart ops (by simp [ops, LogOp.node])
    (by simp [ops, AllFind, Finds, Log.step])).1
  exact ⟨(hrun ⟨"camera"⟩ (by simp)).rotated 1 (by decide), (hrun ⟨"plan"⟩ (by simp)).current⟩

/-- The log of `camera.1` has the name of the first rotated log of `camera`. -/
theorem rotation_overwrites_other_log :
    validateNodeId "camera" = .ok () ∧ validateNodeId "camera.1" = .ok () ∧
      let dir := [.write ⟨"camera"⟩ "a", .write ⟨"camera.1"⟩ "x"].foldl (Log.step "run") ∅
      dir[logPath "run" ⟨"camera.1"⟩]? = some ["x"] ∧
        (rotateLogFiles "run" dir ⟨"camera"⟩ 5)[logPath "run" ⟨"camera.1"⟩]? = some ["a"] := by
  decide +kernel

end Runs

end Dora.Log
