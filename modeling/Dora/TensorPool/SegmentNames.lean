import Dora.Core.ZenohKeys
import Dora.Recording.Format
import Dora.TensorPool.MirrorLifetime

/-!
# Names of shared-memory segments (`tensor-pool/src/lib.rs`, `tensor-pool/src/daemon/mirror.rs`)

Machine, dataflow, node and counter are joined by underscores, which machines and nodes may have in
their own names. Two sweeps take such names apart again: a daemon that starts unlinks the mirrors of
its machine, and a dataflow that starts or ends the segments of its local nodes.
-/

namespace Dora.SegmentNames

open Lib MirrorLifetime
open Recording (Uuid)
open Zenoh (hexPair)

/-- A dash after each group. -/
def grouped : List Nat → List Char → List Char
  | [], text => text
  | n :: groups, text => text.take n ++ '-' :: grouped groups (text.drop n)

/-- `Uuid::to_string`. -/
def uuidText (id : Uuid) : String := String.ofList (grouped [8, 4, 4, 4] (id.bytes.flatMap hexPair))

def isHexDigit (c : Char) : Bool := c.isDigit || 'a' ≤ c && c ≤ 'f' || 'A' ≤ c && c ≤ 'F'

def hyphenated : List Nat → List Char → Bool
  | [], text => text.all isHexDigit
  | n :: groups, text =>
    (text.take n).all isHexDigit && text[n]? == some '-' && hyphenated groups (text.drop (n + 1))

/-- Whether `Uuid::try_parse` accepts a text of 36 characters. -/
def isUuid (text : List Char) : Bool := text.length == 36 && hyphenated [8, 4, 4, 4] text

theorem length_grouped (groups : List Nat) (text : List Char) :
    (grouped groups text).length = text.length + groups.length := by
  induction groups generalizing text with
  | nil => rfl
  | cons n groups ih =>
    have hcut := congrArg List.length (List.take_append_drop n text)
    rw [List.length_append] at hcut
    rw [grouped, List.length_append, List.length_cons, ih, List.length_cons]
    omega

theorem filter_grouped (groups : List Nat) {text : List Char} (h : '-' ∉ text) :
    (grouped groups text).filter (· != '-') = text := by
  have hkept {part : List Char} (hpart : '-' ∉ part) : part.filter (· != '-') = part :=
    List.filter_eq_self.mpr fun c hc => bne_iff_ne.mpr fun heq => hpart (heq ▸ hc)
  induction groups generalizing text with
  | nil => exact hkept h
  | cons n groups ih =>
    have htake : '-' ∉ text.take n := fun hmem => h (List.mem_of_mem_take hmem)
    have hdrop : '-' ∉ text.drop n := fun hmem => h (List.mem_of_mem_drop hmem)
    rw [grouped, List.filter_append, hkept htake, List.filter_cons_of_neg (by decide), ih hdrop,
      List.take_append_drop]

theorem hyphenated_grouped {groups : List Nat} {text : List Char} (hhex : ∀ c ∈ text, isHexDigit c = true)
    (hlen : groups.sum ≤ text.length) : hyphenated groups (grouped groups text) = true := by
  induction groups generalizing text with
  | nil => exact List.all_eq_true.mpr hhex
  | cons n groups ih =>
    rw [List.sum_cons] at hlen
    have hn : (text.take n).length = n := List.length_take_of_le (by omega)
    have hrest : hyphenated groups (grouped groups (text.drop n)) = true :=
      ih (fun c hc => hhex c (List.mem_of_mem_drop hc)) (by rw [List.length_drop]; omega)
    have hfirst : ∀ c ∈ text.take n, isHexDigit c = true := fun c hc => hhex c (List.mem_of_mem_take hc)
    rw [grouped, hyphenated, List.take_left' hn, List.getElem?_append_right (by omega), hn,
      ← List.drop_drop, List.drop_left' hn]
    simpa [hrest] using hfirst

theorem notMem_of_hyphenated {groups : List Nat} {text : List Char} (h : hyphenated groups text = true) :
    '_' ∉ text := by
  have hhex {part : List Char} (hpart : part.all isHexDigit = true) : '_' ∉ part := fun hmem =>
    absurd (List.all_eq_true.mp hpart '_' hmem) (by decide)
  induction groups generalizing text with
  | nil => exact hhex h
  | cons n groups ih =>
    simp only [hyphenated, Bool.and_eq_true, beq_iff_eq] at h
    obtain ⟨⟨hfirst, hdash⟩, hrest⟩ := h
    obtain ⟨hn, hdash⟩ := List.getElem?_eq_some_iff.mp hdash
    rw [← List.take_append_drop n text, List.drop_eq_getElem_cons hn, hdash]
    simpa using ⟨hhex hfirst, ih hrest⟩

theorem notMem_of_isUuid {text : List Char} (h : isUuid text = true) : '_' ∉ text :=
  notMem_of_hyphenated (Bool.and_eq_true_iff.mp h).2

theorem isHexDigit_of_mem_hexPair {bytes : Bytes} {c : Char} (h : c ∈ bytes.flatMap hexPair) :
    isHexDigit c = true := by
  have hdigit : ∀ n < 16, isHexDigit (Nat.digitChar n) = true := by decide
  obtain ⟨byte, -, hc⟩ := List.mem_flatMap.mp h
  have hbyte := byte.toNat_lt
  simp only [hexPair, List.mem_cons, List.not_mem_nil, or_false] at hc
  obtain rfl | rfl := hc
  · exact hdigit _ (by omega)
  · exact hdigit _ (by omega)

theorem isUuid_uuidText (d : Uuid) : isUuid (uuidText d).toList = true := by
  have hlen : (d.bytes.flatMap hexPair).length = 32 := by
    simp [List.length_flatMap, hexPair, d.length_bytes]
  rw [uuidText, String.toList_ofList, isUuid, length_grouped, hlen,
    hyphenated_grouped (fun c hc => isHexDigit_of_mem_hexPair hc) (by rw [hlen]; decide)]
  rfl

theorem uuidText_injective : Function.Injective uuidText := by
  intro d d' h
  have hdash (d : Uuid) : '-' ∉ d.bytes.flatMap hexPair := fun hmem =>
    absurd (isHexDigit_of_mem_hexPair hmem) (by decide)
  have hdigits := congrArg (List.filter (· != '-')) (String.ofList_injective h)
  rw [filter_grouped _ (hdash d), filter_grouped _ (hdash d')] at hdigits
  cases d
  cases d'
  cases Zenoh.flatMap_hexPair_injective hdigits
  rfl

def isMachineSegment (name machineId : String) : Bool :=
  match ((stripStart "dora_pool_" name).bind (stripStart machineId)).bind (stripStart "_") with
  | some rest => isUuid (rest.toList.take 36) && rest.toList[36]? == some '_'
  | none => false

/-- The entries of `/dev/shm` that are left. -/
def cleanupOrphanMirrors (machineId : String) (entries : List String) : List String :=
  entries.filter (!isMachineSegment · machineId)

def isOrphan (dataflowId : String) (isLocalNode : String → Bool) (name : String) : Bool :=
  match (stripStart ("dora_pool_" ++ dataflowId ++ "_") name).bind (rsplitOnce '_') with
  | some (nodeId, counter) => (parseUnsigned (2 ^ 64) counter).isSome && isLocalNode nodeId
  | none => false

def cleanupOrphans (dataflowId : String) (isLocalNode : String → Bool) (entries : List String) :
    List String :=
  entries.filter (!isOrphan dataflowId isLocalNode ·)

structure Pool where
  node : NodeId
  valid : validateNodeId node.name = .ok ()
  counter : Fin (2 ^ 64)

def Pool.suffix (p : Pool) : String := p.node.name ++ "_" ++ (p.counter : Nat).repr

def Pool.sharedMemoryId (p : Pool) : String := "pool_" ++ p.suffix

/-- `m'` goes on after `m` with a uuid of its own. -/
def Shadows (m m' : String) : Prop :=
  ∃ uuid rest, isUuid uuid = true ∧ m'.toList ++ ['_'] = m.toList ++ '_' :: (uuid ++ '_' :: rest)

structure SweepsApart (machines : Set String) : Prop where
  names : ∀ m ∈ machines, ∀ m' ∈ machines, ∀ (d d' : Uuid) (p p' : Pool) (name : String),
    crossPoolShmemName m (uuidText d) p.sharedMemoryId = some name →
    crossPoolShmemName m' (uuidText d') p'.sharedMemoryId = some name →
      m = m' ∧ d = d' ∧ p.sharedMemoryId = p'.sharedMemoryId
  mirrors : ∀ m ∈ machines, ∀ m' ∈ machines, ∀ (d : Uuid) (p : Pool) (name : String),
    crossPoolShmemName m' (uuidText d) p.sharedMemoryId = some name →
      ∀ entries, name ∈ entries → (name ∈ cleanupOrphanMirrors m entries ↔ m' ≠ m)
  orphans : ∀ (d : Uuid) (isLocalNode : String → Bool) (p : Pool) (entries : List String),
    "dora_pool_" ++ uuidText d ++ "_" ++ p.suffix ∈ entries →
      ("dora_pool_" ++ uuidText d ++ "_" ++ p.suffix ∈ cleanupOrphans (uuidText d) isLocalNode entries ↔
        isLocalNode p.node.name = false)

variable {m m' : String} {uuid uuid' r r' : List Char}

theorem isMachineSegment_iff {name : String} : isMachineSegment name m = true ↔
    ∃ uuid rest, isUuid uuid = true ∧
      name.toList = "dora_pool_".toList ++ (m.toList ++ '_' :: (uuid ++ '_' :: rest)) := by
  have hstrip (rest : String) :
      ((stripStart "dora_pool_" name).bind (stripStart m)).bind (stripStart "_") = some rest ↔
        name = "dora_pool_" ++ (m ++ ("_" ++ rest)) := by
    simp only [Option.bind_eq_some_iff, stripStart_eq_some]
    constructor
    · rintro ⟨_, ⟨_, rfl, rfl⟩, rfl⟩
      rfl
    · rintro rfl
      exact ⟨_, ⟨_, rfl, rfl⟩, rfl⟩
  unfold isMachineSegment
  constructor
  · intro h
    split at h
    · rename_i rest hrest
      simp only [Bool.and_eq_true, beq_iff_eq] at h
      obtain ⟨hlen, hsep⟩ := List.getElem?_eq_some_iff.mp h.2
      refine ⟨rest.toList.take 36, rest.toList.drop 37, h.1, ?_⟩
      have hcut := List.take_append_drop 36 rest.toList
      rw [List.drop_eq_getElem_cons hlen, hsep] at hcut
      rw [(hstrip rest).mp hrest, hcut]
      simp
    · cases h
  · rintro ⟨uuid, rest, huuid, hname⟩
    have hlen : uuid.length = 36 := beq_iff_eq.mp (Bool.and_eq_true_iff.mp huuid).1
    have hname : name = "dora_pool_" ++ (m ++ ("_" ++ String.ofList (uuid ++ '_' :: rest))) := by
      rw [← String.toList_inj, hname]
      simp
    rw [(hstrip _).mpr hname]
    simp [List.take_left' hlen, huuid, hlen]

theorem Pool.rsplitOnce_suffix (p : Pool) :
    rsplitOnce '_' p.suffix = some (p.node.name, (p.counter : Nat).repr) :=
  rsplitOnce_eq_some.mpr ⟨by simp [Pool.suffix], not_mem_natRepr rfl _⟩

theorem crossPoolShmemName_eq (d : String) (p : Pool) :
    crossPoolShmemName m d p.sharedMemoryId =
      if hasPathComponent p.node.name || hasPathComponent (p.counter : Nat).repr then none
      else some ("dora_pool_" ++ m ++ "_" ++ d ++ "_" ++ p.node.name ++ "_" ++ (p.counter : Nat).repr) := by
  have hid : stripStart "pool_" p.sharedMemoryId = some p.suffix := stripStart_eq_some.mpr rfl
  rw [crossPoolShmemName, hid, Option.bind_some, p.rsplitOnce_suffix]

theorem toList_of_crossPoolShmemName {d : String} {p : Pool} {name : String}
    (h : crossPoolShmemName m d p.sharedMemoryId = some name) :
    name.toList = "dora_pool_".toList ++ (m.toList ++ '_' :: (d.toList ++ '_' :: p.suffix.toList)) := by
  rw [crossPoolShmemName_eq] at h
  split at h
  · cases h
  · cases h
    simp [Pool.suffix]

theorem shadow_rest {t a : List Char} (huuid : isUuid uuid = true)
    (h : uuid ++ '_' :: r = t ++ '_' :: a) : ∃ rest, t ++ ['_'] = uuid ++ '_' :: rest := by
  rcases List.append_eq_append_iff.mp h with ⟨more, rfl, hmore⟩ | ⟨more, rfl, hmore⟩
  · cases more with
    | nil => exact ⟨[], by simp⟩
    | cons c more =>
      obtain ⟨rfl, -⟩ := List.cons.inj hmore
      exact ⟨more ++ ['_'], by simp⟩
  · cases more with
    | nil => exact ⟨[], by simp⟩
    | cons c more =>
      -- a uuid has no underscore
      obtain ⟨rfl, -⟩ := List.cons.inj hmore
      exact absurd (by simp) (notMem_of_isUuid huuid)

theorem same_machine_of_append {t : List Char} (hno : ¬ Shadows m m') (huuid : isUuid uuid = true)
    (huuid' : isUuid uuid' = true) (hm : m'.toList = m.toList ++ t)
    (h : m.toList ++ '_' :: (uuid ++ '_' :: r) = m'.toList ++ '_' :: (uuid' ++ '_' :: r')) :
    m = m' ∧ uuid = uuid' ∧ r = r' := by
  rw [hm, List.append_assoc, List.append_cancel_left_eq] at h
  cases t with
  | nil =>
    rw [List.append_nil] at hm
    exact ⟨String.toList_inj.mp hm.symm,
      append_sep_inj (notMem_of_isUuid huuid) (notMem_of_isUuid huuid') (List.cons.inj h).2⟩
  | cons c t =>
    obtain ⟨rfl, hcut⟩ := List.cons.inj h
    obtain ⟨rest, hrest⟩ := shadow_rest huuid hcut
    exact absurd ⟨uuid, rest, huuid, by rw [hm, ← hrest]; simp⟩ hno

/-- Where no machine shadows the other, the uuid after the machine tells where the machine ends. -/
theorem same_machine (hno : ¬ Shadows m m') (hno' : ¬ Shadows m' m) (huuid : isUuid uuid = true)
    (huuid' : isUuid uuid' = true)
    (h : m.toList ++ '_' :: (uuid ++ '_' :: r) = m'.toList ++ '_' :: (uuid' ++ '_' :: r')) :
    m = m' ∧ uuid = uuid' ∧ r = r' := by
  rcases List.append_eq_append_iff.mp h with ⟨t, hm, -⟩ | ⟨t, hm, -⟩
  · exact same_machine_of_append hno huuid huuid' hm h
  · obtain ⟨hm, hd, hr⟩ := same_machine_of_append hno' huuid' huuid hm h.symm
    exact ⟨hm.symm, hd.symm, hr.symm⟩

theorem isOrphan_segment (d : Uuid) (isLocalNode : String → Bool) (p : Pool) :
    isOrphan (uuidText d) isLocalNode ("dora_pool_" ++ uuidText d ++ "_" ++ p.suffix) =
      isLocalNode p.node.name := by
  rw [isOrphan, stripStart_eq_some.mpr rfl, Option.bind_some, p.rsplitOnce_suffix]
  dsimp only
  rw [parseUnsigned_repr, if_pos p.counter.isLt]
  rfl

theorem Shadows.isMachineSegment (h : Shadows m m') {d name : String} {p : Pool}
    (hname : crossPoolShmemName m' d p.sharedMemoryId = some name) : isMachineSegment name m = true := by
  obtain ⟨uuid, rest, huuid, hshadow⟩ := h
  have hjoin : m'.toList ++ '_' :: (d.toList ++ '_' :: p.suffix.toList) =
      m'.toList ++ ['_'] ++ (d.toList ++ '_' :: p.suffix.toList) := by simp
  refine isMachineSegment_iff.mpr ⟨uuid, rest ++ (d.toList ++ '_' :: p.suffix.toList), huuid, ?_⟩
  rw [toList_of_crossPoolShmemName hname, hjoin, hshadow]
  simp

theorem Shadows.ne (h : Shadows m m') : m' ≠ m := by
  rintro rfl
  obtain ⟨uuid, rest, -, hshadow⟩ := h
  have hlen := congrArg List.length hshadow
  simp at hlen

/-- The sweeps unlink the segments they are for and no others, and no two segments have one name, for
exactly those machines of which none shadows another. -/
theorem sweeps_apart_iff (machines : Set String) :
    SweepsApart machines ↔ ∀ m ∈ machines, ∀ m' ∈ machines, ¬ Shadows m m' := by
  constructor
  · intro h m hm m' hm' hshadow
    let d : Uuid := ⟨List.replicate 16 0, rfl⟩
    let p : Pool := ⟨⟨"n"⟩, by decide, 0⟩
    have hpath : (hasPathComponent p.node.name || hasPathComponent (p.counter : Nat).repr) = false := by
      decide +kernel
    have hname := crossPoolShmemName_eq (m := m') (uuidText d) p
    rw [hpath, if_neg Bool.false_ne_true] at hname
    have hleft := (h.mirrors m hm m' hm' d p _ hname [_] List.mem_cons_self).mpr hshadow.ne
    simp [cleanupOrphanMirrors, hshadow.isMachineSegment hname] at hleft
  · intro hno
    refine ⟨fun m hm m' hm' d d' p p' name h h' => ?_, fun m hm m' hm' d p name h entries hentry => ?_,
      fun d isLocalNode p entries hentry => ?_⟩
    · have heq := List.append_cancel_left
        ((toList_of_crossPoolShmemName h).symm.trans (toList_of_crossPoolShmemName h'))
      obtain ⟨hm, hd, hp⟩ := same_machine (hno m hm m' hm') (hno m' hm' m hm) (isUuid_uuidText d)
        (isUuid_uuidText d') heq
      refine ⟨hm, uuidText_injective (String.toList_inj.mp hd), ?_⟩
      rw [Pool.sharedMemoryId, Pool.sharedMemoryId, String.toList_inj.mp hp]
    · have hlist := toList_of_crossPoolShmemName h
      have hiff : isMachineSegment name m = true ↔ m' = m := by
        rw [isMachineSegment_iff]
        constructor
        · rintro ⟨uuid, rest, huuid, hname⟩
          exact (same_machine (hno m' hm' m hm) (hno m hm m' hm') (isUuid_uuidText d) huuid
            (List.append_cancel_left (hlist.symm.trans hname))).1
        · rintro rfl
          exact ⟨_, _, isUuid_uuidText d, hlist⟩
      simp [cleanupOrphanMirrors, hentry, ← hiff]
    · simp [cleanupOrphans, hentry, isOrphan_segment]

/-- The machine `robot_<uuid>` has a segment with the name of one of the machine `robot`, and the daemon of
`robot` unlinks it when it starts. -/
theorem robot_unlinks_sibling_segment :
    let uuid := uuidText ⟨List.replicate 16 0x67, rfl⟩
    let name := "dora_pool_robot_" ++ uuid ++ "_" ++ uuid ++ "_camera_0"
    validateNodeId "camera" = .ok () ∧ validateNodeId (uuid ++ "_camera") = .ok () ∧
      crossPoolShmemName ("robot_" ++ uuid) uuid "pool_camera_0" = some name ∧
      crossPoolShmemName "robot" uuid ("pool_" ++ uuid ++ "_camera_0") = some name ∧
      cleanupOrphanMirrors "robot" [name] = [] := by
  decide +kernel

end Dora.SegmentNames
