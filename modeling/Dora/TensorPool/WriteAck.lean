import Dora.TensorPool.CrossWrite

/-!
# Cross-machine writes are acknowledged truthfully

Every sequence number belongs to one write for good, so an ack can answer no other write than the one
whose bytes it is about. An unanswered write is pending under its effective number. What the mirror
acknowledges is in the region as long as the planes do not store different bytes at the same time: the
node waits for its answer, but the timeout gives one while a direct frame is still being read.
-/

namespace Dora.TensorPool

open Std Lib

variable {origin : Origin} {owner : Nat → Option Nat} {seq : Nat} {reply : Except String Unit}

/-- The pending replies are those of the unanswered writes, each under the number that its timeout task
looks up, and no number is given out twice. -/
structure Keeps (owner : Nat → Option Nat) (origin : Origin) : Prop where
  pending : ∀ q i : Nat, origin.pending[q]? = some i ↔
    ∃ w, origin.writes[i]? = some w ∧ w.effectiveSeq = q ∧ w.replies = []
  once : ∀ (i : Nat) (w : CrossWrite), origin.writes[i]? = some w → w.replies.length ≤ 1
  owned : ∀ (i : Nat) (w : CrossWrite), origin.writes[i]? = some w →
    owner w.seq = some i ∧ owner w.effectiveSeq = some i
  fresh : origin.isCross = true → ∀ q i, owner q = some i → q ≤ origin.writeSeq
  drained : origin.isCross = false → ∀ q : Nat, origin.pending[q]? = none

variable {w : CrossWrite} {i j q : Nat}

theorem Keeps.unanswered (hkeeps : Keeps owner origin) (hw : origin.writes[i]? = some w)
    (hnil : w.replies = []) : origin.pending[w.effectiveSeq]? = some i :=
  (hkeeps.pending _ i).mpr ⟨w, hw, rfl, hnil⟩

/-- Each write is changed by `g`. -/
theorem Keeps.map (hkeeps : Keeps owner origin) {owner' : Nat → Option Nat} {origin' : Origin}
    {g : Nat → CrossWrite → CrossWrite} (hwrites : ∀ i : Nat, origin'.writes[i]? = origin.writes[i]?.map (g i))
    (hpending : ∀ q i : Nat, origin'.pending[q]? = some i ↔
      ∃ w, origin.writes[i]? = some w ∧ (g i w).effectiveSeq = q ∧ (g i w).replies = [])
    (honce : ∀ i w, w.replies.length ≤ 1 → (g i w).replies.length ≤ 1)
    (howned : ∀ (i : Nat) (w : CrossWrite), origin.writes[i]? = some w →
      owner' (g i w).seq = some i ∧ owner' (g i w).effectiveSeq = some i)
    (hfresh : origin'.isCross = true → ∀ q i, owner' q = some i → q ≤ origin'.writeSeq)
    (hdrained : origin'.isCross = false → ∀ q : Nat, origin'.pending[q]? = none) :
    Keeps owner' origin' := by
  have hback {i : Nat} {w : CrossWrite} (hw : origin'.writes[i]? = some w) :
      ∃ before, origin.writes[i]? = some before ∧ g i before = w :=
    Option.map_eq_some_iff.mp ((hwrites i).symm.trans hw)
  refine ⟨fun q i => (hpending q i).trans ⟨?_, ?_⟩, ?_, ?_, hfresh, hdrained⟩
  · rintro ⟨w, hw, hsame⟩
    exact ⟨g i w, by rw [hwrites, hw, Option.map_some], hsame⟩
  · rintro ⟨w, hw, hsame⟩
    obtain ⟨before, hbefore, rfl⟩ := hback hw
    exact ⟨before, hbefore, hsame⟩
  · intro i w hw
    obtain ⟨before, hbefore, rfl⟩ := hback hw
    exact honce i before (hkeeps.once i before hbefore)
  · intro i w hw
    obtain ⟨before, hbefore, rfl⟩ := hback hw
    exact howned i before hbefore

/-- The write after the reply to the number `seq`. -/
def answered (seq : Nat) (reply : Except String Unit) (w : CrossWrite) : CrossWrite :=
  if w.replies = [] ∧ w.effectiveSeq = seq then { w with replies := [reply] } else w

namespace Origin

theorem getElem?_pending_answer (q : Nat) :
    (origin.answer seq reply).pending[q]? = if seq = q then none else origin.pending[q]? := by
  unfold answer
  cases hpending : origin.pending[seq]? with
  | none =>
    show origin.pending[q]? = _
    split
    · rename_i hq
      rw [← hq, hpending]
    · rfl
  | some => simp only [TreeMap.getElem?_erase, Std.compare_eq_iff_eq]

theorem isCross_answer : (origin.answer seq reply).isCross = origin.isCross := by
  unfold answer
  split <;> rfl

theorem writeSeq_answer : (origin.answer seq reply).writeSeq = origin.writeSeq := by
  unfold answer
  split <;> rfl

theorem getElem?_writes_answer (hkeeps : Keeps owner origin) (i : Nat) :
    (origin.answer seq reply).writes[i]? = origin.writes[i]?.map (answered seq reply) := by
  cases hw : origin.writes[i]? with
  | none =>
    unfold answer
    split
    · exact hw
    · simpa using hw
  | some w =>
    unfold answer
    cases hpending : origin.pending[seq]? with
    | none =>
      have hother : ¬(w.replies = [] ∧ w.effectiveSeq = seq) := by
        rintro ⟨hnil, rfl⟩
        cases hpending.symm.trans (hkeeps.unanswered hw hnil)
      rw [Option.map_some, answered, if_neg hother]
      exact hw
    | some j =>
      obtain ⟨before, hbefore, hseq, hnil⟩ := (hkeeps.pending seq j).mp hpending
      simp only [List.getElem?_modify, hw, Option.map_some, Option.map_eq_map, answered]
      by_cases hj : j = i
      · subst hj
        obtain rfl : w = before := Option.some.inj (hw.symm.trans hbefore)
        rw [if_pos rfl, if_pos ⟨hnil, hseq⟩, hnil]
        rfl
      · rw [if_neg hj, if_neg]
        rintro ⟨hnil, rfl⟩
        exact hj (Option.some.inj (hpending.symm.trans (hkeeps.unanswered hw hnil)))

end Origin

theorem Keeps.answer (hkeeps : Keeps owner origin) : Keeps owner (origin.answer seq reply) := by
  refine hkeeps.map (g := fun _ => answered seq reply) (Origin.getElem?_writes_answer hkeeps)
    (fun q i => ?_) (fun i w honce => ?_) (fun i w hw => ?_) ?_ fun hcross q => ?_
  · rw [Origin.getElem?_pending_answer]
    constructor
    · intro hq
      split at hq
      · cases hq
      rename_i hne
      obtain ⟨w, hw, rfl, hnil⟩ := (hkeeps.pending q i).mp hq
      have hother : ¬(w.replies = [] ∧ w.effectiveSeq = seq) := fun h => hne h.2.symm
      exact ⟨w, hw, by rw [answered, if_neg hother], by rw [answered, if_neg hother, hnil]⟩
    · rintro ⟨w, hw, rfl, hnil⟩
      unfold answered at hnil ⊢
      split at hnil
      · cases hnil
      rename_i hother
      rw [if_neg hother, if_neg fun h => hother ⟨hnil, h.symm⟩, hkeeps.unanswered hw hnil]
  · unfold answered
    split
    · exact Nat.le_refl 1
    · exact honce
  · have howned := hkeeps.owned i w hw
    unfold answered
    split <;> exact howned
  · rw [Origin.isCross_answer, Origin.writeSeq_answer]
    exact hkeeps.fresh
  · rw [Origin.isCross_answer] at hcross
    rw [Origin.getElem?_pending_answer, hkeeps.drained hcross q, ite_self]

theorem Keeps.modify (hkeeps : Keeps owner origin) (j : Nat) {f : CrossWrite → CrossWrite}
    (hf : ∀ w, (f w).seq = w.seq ∧ (f w).effectiveSeq = w.effectiveSeq ∧ (f w).replies = w.replies) :
    Keeps owner { origin with writes := origin.writes.modify j f } := by
  have hsame (i : Nat) (w : CrossWrite) : (if j = i then f w else w).seq = w.seq ∧
      (if j = i then f w else w).effectiveSeq = w.effectiveSeq ∧
      (if j = i then f w else w).replies = w.replies := by
    split
    · exact hf w
    · exact ⟨rfl, rfl, rfl⟩
  refine hkeeps.map (fun i => List.getElem?_modify ..) (fun q i => ?_) (fun i w honce => ?_)
    (fun i w hw => ?_) hkeeps.fresh hkeeps.drained
  · simp only [hsame]
    exact hkeeps.pending q i
  · rwa [(hsame i w).2.2]
  · rw [(hsame i w).1, (hsame i w).2.1]
    exact hkeeps.owned i w hw

/-- The next number is new, and it goes to the write `i`. -/
def grant (owner : Nat → Option Nat) (origin : Origin) (i : Nat) : Nat → Option Nat :=
  Function.update owner (origin.writeSeq + 1) (some i)

section Grant

variable (hkeeps : Keeps owner origin) (hcross : origin.isCross = true)

include hkeeps hcross

theorem grant_of_owned (i : Nat) (hq : owner q = some j) : grant owner origin i q = some j := by
  have hle := hkeeps.fresh hcross q j hq
  rw [grant, Function.update_of_ne (by omega), hq]

theorem owned_grant (i : Nat) (hw : origin.writes[j]? = some w) :
    grant owner origin i w.seq = some j ∧ grant owner origin i w.effectiveSeq = some j :=
  (hkeeps.owned j w hw).imp (grant_of_owned hkeeps hcross i) (grant_of_owned hkeeps hcross i)

theorem le_of_grant (hq : grant owner origin i q = some j) : q ≤ origin.writeSeq + 1 := by
  by_cases hnew : q = origin.writeSeq + 1
  · omega
  · rw [grant, Function.update_of_ne hnew] at hq
    have hle := hkeeps.fresh hcross q j hq
    omega

theorem Keeps.pending_next (hq : origin.pending[q]? = some i) : origin.writeSeq + 1 ≠ q := by
  obtain ⟨w, hw, rfl, -⟩ := (hkeeps.pending q i).mp hq
  have hle := hkeeps.fresh hcross _ _ (hkeeps.owned i w hw).2
  omega

theorem Keeps.handleWrite (size : Nat) (hasSegment hasEndpoint : Bool) :
    Keeps (grant owner origin origin.writes.length)
      (origin.handleWrite size hasSegment hasEndpoint) := by
  simp only [Origin.handleWrite, hcross, Bool.not_true, Bool.false_eq_true, if_false]
  refine ⟨fun q i => ?_, fun i w hw => ?_, fun i w hw => ?_, fun _ q i => le_of_grant hkeeps hcross, nofun⟩
  · simp only [TreeMap.getElem?_insert, Std.compare_eq_iff_eq]
    constructor
    · intro hq
      split at hq
      · rename_i hseq
        cases hq
        exact ⟨_, List.getElem?_concat_length, hseq, rfl⟩
      · obtain ⟨w, hw, hsame⟩ := (hkeeps.pending q i).mp hq
        exact ⟨w, getElem?_concat_of_some hw, hsame⟩
    · rintro ⟨w, hw, rfl, hnil⟩
      obtain hold | ⟨rfl, rfl⟩ := getElem?_concat_cases hw
      · have hpending := hkeeps.unanswered hold hnil
        rw [if_neg (hkeeps.pending_next hcross hpending), hpending]
      · rw [if_pos rfl]
  · obtain hold | ⟨rfl, rfl⟩ := getElem?_concat_cases hw
    · exact hkeeps.once i w hold
    · exact Nat.zero_le 1
  · obtain hold | ⟨rfl, rfl⟩ := getElem?_concat_cases hw
    · exact owned_grant hkeeps hcross _ hold
    · exact ⟨Function.update_self _ _ _, Function.update_self _ _ _⟩

theorem Keeps.rekeyed (hw : origin.writes[i]? = some w) (hseq : w.effectiveSeq = w.seq)
    (hreplies : w.replies = []) :
    Keeps (grant owner origin i) { origin with
      writeSeq := origin.writeSeq + 1
      pending := (origin.pending.erase w.seq).insert (origin.writeSeq + 1) i
      writes := origin.writes.modify i fun w => { w with effectiveSeq := origin.writeSeq + 1 } } := by
  refine hkeeps.map (fun i => List.getElem?_modify ..) (fun q j => ?_) (fun j v honce => ?_)
    (fun j v hv => ?_) (fun _ q j => le_of_grant hkeeps hcross) fun hlocal => ?_
  · simp only [TreeMap.getElem?_insert, TreeMap.getElem?_erase, Std.compare_eq_iff_eq]
    constructor
    · intro hq
      split at hq
      · rename_i hnew
        cases hq
        exact ⟨w, hw, by rw [if_pos rfl]; exact hnew, by rw [if_pos rfl]; exact hreplies⟩
      · split at hq
        · cases hq
        rename_i hold
        obtain ⟨v, hv, hvseq, hnil⟩ := (hkeeps.pending q j).mp hq
        have hj : i ≠ j := by
          rintro rfl
          cases hw.symm.trans hv
          exact hold (hseq.symm.trans hvseq)
        exact ⟨v, hv, by rw [if_neg hj, hvseq], by rw [if_neg hj, hnil]⟩
    · rintro ⟨v, hv, rfl, hnil⟩
      by_cases hj : i = j
      · rw [if_pos hj, if_pos rfl, hj]
      · rw [if_neg hj] at hnil ⊢
        have hpending := hkeeps.unanswered hv hnil
        have hother : w.seq ≠ v.effectiveSeq := by
          intro heq
          have hown := (hkeeps.owned j v hv).2
          rw [← heq, (hkeeps.owned i w hw).1] at hown
          exact hj (Option.some.inj hown)
        rw [if_neg (hkeeps.pending_next hcross hpending), if_neg hother, hpending]
  · split <;> exact honce
  · have howned := owned_grant hkeeps hcross i hv
    split
    · rename_i hj
      exact ⟨howned.1, by rw [← hj]; exact Function.update_self _ _ _⟩
    · exact howned
  · cases hcross.symm.trans (show origin.isCross = false from hlocal)

end Grant

theorem Keeps.rekey (hkeeps : Keeps owner origin) {relaySeq : Nat} {origin' : Origin}
    (hw : origin.writes[i]? = some w)
    (h : origin.rekeyCrossWriteToRelay i w.seq = some (relaySeq, origin')) :
    origin.isCross = true ∧ w.replies = [] ∧ relaySeq = origin.writeSeq + 1 ∧
      origin'.writes = origin.writes.modify i (fun w => { w with effectiveSeq := relaySeq }) ∧
      Keeps (grant owner origin i) origin' := by
  unfold Origin.rekeyCrossWriteToRelay at h
  cases hpending : origin.pending[w.seq]? with
  | none => simp [hpending] at h
  | some j =>
    simp only [hpending, Option.some.injEq, Prod.mk.injEq] at h
    obtain ⟨rfl, rfl⟩ := h
    -- the reply under the number is this write's: the number has one owner
    obtain ⟨wj, hwj, hseq, hreplies⟩ := (hkeeps.pending _ j).mp hpending
    have hown := (hkeeps.owned j wj hwj).2
    rw [hseq, (hkeeps.owned i w hw).1] at hown
    obtain rfl : i = j := Option.some.inj hown
    obtain rfl : w = wj := Option.some.inj (hw.symm.trans hwj)
    have hcross : origin.isCross = true := by
      cases hc : origin.isCross with
      | true => rfl
      | false => cases hpending.symm.trans (hkeeps.drained hc _)
    exact ⟨hcross, hreplies, rfl, rfl, hkeeps.rekeyed hcross hw hseq hreplies⟩

def answerAll (reply : Except String Unit) (origin : Origin) (seqs : List Nat) : Origin :=
  seqs.foldl (fun origin seq => origin.answer seq reply) origin

theorem getElem?_pending_answerAll (seqs : List Nat) (q : Nat) :
    (answerAll reply origin seqs).pending[q]? = if q ∈ seqs then none else origin.pending[q]? := by
  induction seqs generalizing origin with
  | nil => rfl
  | cons seq seqs ih =>
    rw [answerAll, List.foldl_cons, ← answerAll, ih, Origin.getElem?_pending_answer]
    grind

theorem Keeps.answerAll (hkeeps : Keeps owner origin) (seqs : List Nat) :
    Keeps owner (answerAll reply origin seqs) := by
  induction seqs generalizing origin with
  | nil => exact hkeeps
  | cons seq seqs ih => exact ih hkeeps.answer

theorem getElem?_writes_answerAll (hkeeps : Keeps owner origin) (seqs : List Nat)
    (hw : origin.writes[i]? = some w) :
    (answerAll reply origin seqs).writes[i]? =
      some (if w.replies = [] ∧ w.effectiveSeq ∈ seqs then { w with replies := [reply] } else w) := by
  induction seqs generalizing origin w with
  | nil => simpa [answerAll] using hw
  | cons seq seqs ih =>
    have hstep : (origin.answer seq reply).writes[i]? = some (answered seq reply w) := by
      rw [Origin.getElem?_writes_answer hkeeps, hw, Option.map_some]
    rw [answerAll, List.foldl_cons, ← answerAll, ih hkeeps.answer hstep]
    unfold answered
    grind

theorem getElem?_pending_drain (q : Nat) : origin.drainCrossWritePending.pending[q]? = none := by
  rw [Origin.drainCrossWritePending, ← answerAll, getElem?_pending_answerAll]
  by_cases hmem : q ∈ origin.pending
  · rw [if_pos (TreeMap.mem_keys.mpr hmem)]
  · rw [TreeMap.getElem?_eq_none hmem, ite_self]

theorem Keeps.cleanupDataflow (hkeeps : Keeps owner origin) : Keeps owner origin.cleanupDataflow := by
  have hdrained : Keeps owner origin.drainCrossWritePending := hkeeps.answerAll _
  exact ⟨hdrained.pending, hdrained.once, hdrained.owned, nofun,
    fun _ q => getElem?_pending_drain q⟩

theorem getElem?_writes_cleanupDataflow (hkeeps : Keeps owner origin) (hw : origin.writes[i]? = some w) :
    origin.cleanupDataflow.writes[i]? = some (if w.replies = [] then { w with replies :=
      [.error "dataflow finished before the cross-machine write was acknowledged"] } else w) := by
  refine (getElem?_writes_answerAll hkeeps origin.pending.keys hw).trans ?_
  by_cases hnil : w.replies = []
  · have hmem : w.effectiveSeq ∈ origin.pending.keys := by
      rw [TreeMap.mem_keys, TreeMap.mem_iff_isSome_getElem?, hkeeps.unanswered hw hnil]
      rfl
    rw [if_pos ⟨hnil, hmem⟩, if_pos hnil]
  · rw [if_neg fun h => hnil h.1, if_neg hnil]

section world

variable {world : World}

/-- What the task of the write `i` knows: the bytes it holds are the ones it read. -/
def TaskFits (owner : Nat → Option Nat) (i : Nat) (w : CrossWrite) : Prop :=
  match w.task with
  | .reading => w.data = none
  | .sending data => w.data = some data
  | .relaying data seq => w.data = some data ∧ owner seq = some i
  | .done => True

/-- Every frame carries the bytes of the write that its number belongs to, and every positive ack, on
the way or handed to the node, is about a frame that has been stored. -/
structure Truthful (owner : Nat → Option Nat) (stored : Frame → Prop) (world : World) : Prop where
  keeps : Keeps owner world.origin
  tasks : ∀ (i : Nat) (w : CrossWrite), world.origin.writes[i]? = some w → TaskFits owner i w
  frames : ∀ f ∈ world.frames, ∃ i w, owner f.seq = some i ∧ world.origin.writes[i]? = some w ∧
    w.data = some f.data
  writers : ∀ v ∈ world.writers, v.frame ∈ world.frames
  acks : ∀ a ∈ world.acks, a.ok = true → ∃ f ∈ world.frames, f.seq = a.seq ∧ stored f
  told : ∀ (i : Nat) (w : CrossWrite), world.origin.writes[i]? = some w → .ok () ∈ w.replies →
    ∃ f ∈ world.frames, f.seq = w.effectiveSeq ∧ stored f

variable {stored : Frame → Prop}

/-- Each write is changed by `g`, and none loses its bytes or its numbers. -/
theorem Truthful.map (h : Truthful owner stored world) {owner' : Nat → Option Nat} {origin' : Origin}
    {g : Nat → CrossWrite → CrossWrite} (hkeeps : Keeps owner' origin')
    (howner : ∀ q j, owner q = some j → owner' q = some j)
    (hwrites : ∀ i : Nat, origin'.writes[i]? = world.origin.writes[i]?.map (g i))
    (hchange : ∀ (i : Nat) (w : CrossWrite), world.origin.writes[i]? = some w →
      TaskFits owner' i (g i w) ∧ (∀ data, w.data = some data → (g i w).data = some data) ∧
        (.ok () ∈ (g i w).replies → ∃ f ∈ world.frames, f.seq = (g i w).effectiveSeq ∧ stored f)) :
    Truthful owner' stored { world with origin := origin' } := by
  have hback {i : Nat} {w : CrossWrite} (hw : origin'.writes[i]? = some w) :
      ∃ before, world.origin.writes[i]? = some before ∧ g i before = w :=
    Option.map_eq_some_iff.mp ((hwrites i).symm.trans hw)
  refine ⟨hkeeps, ?_, ?_, h.writers, h.acks, ?_⟩
  · intro i w hw
    obtain ⟨before, hbefore, rfl⟩ := hback hw
    exact (hchange i before hbefore).1
  · intro f hf
    obtain ⟨i, w, hfrom, hw, hdata⟩ := h.frames f hf
    exact ⟨i, g i w, howner _ _ hfrom, by rw [hwrites, hw, Option.map_some], (hchange i w hw).2.1 _ hdata⟩
  · intro i w hw
    obtain ⟨before, hbefore, rfl⟩ := hback hw
    exact (hchange i before hbefore).2.2

theorem Truthful.answer (h : Truthful owner stored world)
    (hreply : reply = .ok () → ∃ f ∈ world.frames, f.seq = seq ∧ stored f) :
    Truthful owner stored { world with origin := world.origin.answer seq reply } := by
  refine h.map (g := fun _ => answered seq reply) h.keeps.answer (fun _ _ => id)
    (Origin.getElem?_writes_answer h.keeps) fun i w hw => ?_
  have hfits := h.tasks i w hw
  unfold answered
  split
  · rename_i hnow
    refine ⟨hfits, fun _ => id, fun hok => ?_⟩
    rw [hnow.2]
    exact hreply (List.mem_singleton.mp hok).symm
  · exact ⟨hfits, fun _ => id, h.told i w hw⟩

theorem Truthful.answerAll (h : Truthful owner stored world) {e : String} (seqs : List Nat) :
    Truthful owner stored { world with origin := TensorPool.answerAll (.error e) world.origin seqs } := by
  induction seqs generalizing world with
  | nil => exact h
  | cons seq seqs ih =>
    have hstep : Truthful owner stored { world with origin := world.origin.answer seq (.error e) } :=
      h.answer nofun
    exact ih hstep

theorem Truthful.cleanupDataflow (h : Truthful owner stored world) :
    Truthful owner stored { world with origin := world.origin.cleanupDataflow } := by
  have hdrained : Truthful owner stored { world with origin := world.origin.drainCrossWritePending } :=
    h.answerAll world.origin.pending.keys
  exact ⟨h.keeps.cleanupDataflow, hdrained.tasks, hdrained.frames, hdrained.writers, hdrained.acks,
    hdrained.told⟩

theorem Truthful.modify (h : Truthful owner stored world) (i : Nat) (f : CrossWrite → CrossWrite)
    (hf : ∀ w, (f w).seq = w.seq ∧ (f w).effectiveSeq = w.effectiveSeq ∧ (f w).replies = w.replies)
    (hfits : ∀ w, world.origin.writes[i]? = some w → TaskFits owner i (f w))
    (hdata : ∀ w, world.origin.writes[i]? = some w → ∀ data, w.data = some data →
      (f w).data = some data) :
    Truthful owner stored { world with
      origin := { world.origin with writes := world.origin.writes.modify i f } } := by
  refine h.map (h.keeps.modify i hf) (fun _ _ => id) (fun j => List.getElem?_modify ..) fun j w hw => ?_
  split
  · rename_i hj
    subst hj
    refine ⟨hfits w hw, hdata w hw, ?_⟩
    rw [(hf w).2.1, (hf w).2.2]
    exact h.told i w hw
  · exact ⟨h.tasks j w hw, fun _ => id, h.told j w hw⟩

theorem Truthful.finishTask (h : Truthful owner stored world) (i : Nat) :
    Truthful owner stored { world with origin := world.origin.setTask i .done } :=
  h.modify i _ (fun _ => ⟨rfl, rfl, rfl⟩) (fun _ _ => trivial) fun _ _ _ hdata => hdata

variable {n : Nat}

theorem Truthful.send (h : Truthful owner stored world) {f : Frame}
    (howner : owner f.seq = some i) (hw : world.origin.writes[i]? = some w)
    (hdata : w.data = some f.data) :
    Truthful owner stored { world with frames := world.frames ++ [f] } := by
  refine ⟨h.keeps, h.tasks, ?_, ?_, ?_, ?_⟩
  · intro g hg
    obtain hg | hg := List.mem_append.mp hg
    · exact h.frames g hg
    · rw [List.mem_singleton.mp hg]
      exact ⟨i, w, howner, hw, hdata⟩
  · exact fun v hv => List.mem_append_left _ (h.writers v hv)
  · intro a ha hok
    obtain ⟨g, hg, hrest⟩ := h.acks a ha hok
    exact ⟨g, List.mem_append_left _ hg, hrest⟩
  · intro j v hv hok
    obtain ⟨g, hg, hrest⟩ := h.told j v hv hok
    exact ⟨g, List.mem_append_left _ hg, hrest⟩

theorem Truthful.handOver (h : Truthful owner stored world)
    (hw : world.origin.writes[i]? = some w) (htask : w.task = .reading) (data : Payload) :
    Truthful owner stored (world.handOver i w data) := by
  have howner := (h.keeps.owned i w hw).1
  have hunread : w.data = none := by
    have hfits := h.tasks i w hw
    rwa [TaskFits, htask] at hfits
  let f : CrossWrite → CrossWrite := fun v => { v with
    task := if w.hasEndpoint then .sending data else .relaying data w.seq, data := some data }
  have hfits : ∀ v, TaskFits owner i (f v) := by
    intro v
    unfold TaskFits
    cases hendpoint : w.hasEndpoint
    · simp only [f, hendpoint, Bool.false_eq_true, if_false]
      exact ⟨trivial, howner⟩
    · simp only [f, hendpoint, if_true]
  have hmodified : Truthful owner stored { world with
      origin := { world.origin with writes := world.origin.writes.modify i f } } := by
    apply h.modify i f (fun _ => ⟨rfl, rfl, rfl⟩) fun v _ => hfits v
    intro v hv d hd
    rw [hw] at hv
    cases hv
    cases hunread.symm.trans hd
  have hnow : (world.origin.writes.modify i f)[i]? = some (f w) := by
    simp [hw]
  exact hmodified.send howner hnow rfl

theorem TaskFits.grant (hkeeps : Keeps owner origin) (hcross : origin.isCross = true) {j : Nat}
    (h : TaskFits owner i w) : TaskFits (TensorPool.grant owner origin j) i w := by
  unfold TaskFits at h ⊢
  split
  · rename_i htask
    rwa [htask] at h
  · rename_i htask
    rwa [htask] at h
  · rename_i htask
    rw [htask] at h
    exact ⟨h.1, grant_of_owned hkeeps hcross j h.2⟩
  · trivial

theorem Truthful.handleWrite (h : Truthful owner stored world) (size : Nat) (hasSegment hasEndpoint : Bool) :
    ∃ owner', Truthful owner' stored { world with
      origin := world.origin.handleWrite size hasSegment hasEndpoint } := by
  cases hcross : world.origin.isCross with
  | false =>
    simp only [Origin.handleWrite, hcross, Bool.not_false, if_true]
    have hkeeps := h.keeps
    exact ⟨owner, ⟨hkeeps.pending, hkeeps.once, hkeeps.owned, nofun,
      fun _ => hkeeps.drained hcross⟩, h.tasks, h.frames, h.writers, h.acks, h.told⟩
  | true =>
    refine ⟨_, h.keeps.handleWrite hcross size hasSegment hasEndpoint, ?_, ?_, h.writers, h.acks, ?_⟩
    all_goals simp only [Origin.handleWrite, hcross, Bool.not_true, Bool.false_eq_true, if_false]
    · intro i w hw
      obtain hold | ⟨rfl, rfl⟩ := getElem?_concat_cases hw
      · exact (h.tasks i w hold).grant h.keeps hcross
      · exact rfl
    · intro f hf
      obtain ⟨i, w, howner, hw, hdata⟩ := h.frames f hf
      exact ⟨i, w, grant_of_owned h.keeps hcross _ howner, getElem?_concat_of_some hw, hdata⟩
    · intro i w hw hok
      obtain hold | ⟨rfl, rfl⟩ := getElem?_concat_cases hw
      · exact h.told i w hold hok
      · cases hok

theorem Truthful.rekey (h : Truthful owner stored world) {relaySeq : Nat} {origin' : Origin}
    (hw : world.origin.writes[i]? = some w)
    (hrekey : world.origin.rekeyCrossWriteToRelay i w.seq = some (relaySeq, origin')) :
    Truthful (grant owner world.origin i) stored { world with origin := origin' } := by
  obtain ⟨hcross, hreplies, hseq, hwrites, hkeeps⟩ := h.keeps.rekey hw hrekey
  refine h.map hkeeps (fun q j => grant_of_owned h.keeps hcross i)
    (fun j => by rw [hwrites]; exact List.getElem?_modify ..) fun j v hv => ?_
  have hfits := (h.tasks j v hv).grant h.keeps hcross (j := i)
  split
  · rename_i hj
    subst hj
    refine ⟨hfits, fun _ => id, fun hok => ?_⟩
    -- the write that is re-keyed has no reply yet
    rw [show v.replies = [] from Option.some.inj (hw.symm.trans hv) ▸ hreplies] at hok
    cases hok
  · exact ⟨hfits, fun _ => id, h.told j v hv⟩

theorem Truthful.mirror (h : Truthful owner stored world) {writers : List FrameWriter} {region : Payload}
    {acks : List WriteAck} (hwriters : ∀ v ∈ writers, v.frame ∈ world.frames)
    (hacks : ∀ a ∈ acks, a.ok = true → a ∈ world.acks ∨ ∃ f ∈ world.frames, f.seq = a.seq ∧ stored f) :
    Truthful owner stored { world with writers, region, acks } :=
  ⟨h.keeps, h.tasks, h.frames, hwriters,
    fun a ha hok => (hacks a ha hok).elim (fun hold => h.acks a hold hok) id, h.told⟩

theorem Truthful.onFrameArrives (h : Truthful owner stored world) {frame : Frame}
    (hframe : frame ∈ world.frames) (opens : Bool) :
    Truthful owner stored (world.onFrameArrives frame opens) := by
  unfold World.onFrameArrives
  split
  · apply h.mirror _ fun a ha _ => .inl ha
    intro v hv
    obtain hv | hv := List.mem_append.mp hv
    · exact h.writers v hv
    · rw [List.mem_singleton.mp hv]
      exact hframe
  · apply h.mirror h.writers
    intro a ha hok
    obtain ha | ha := List.mem_append.mp ha
    · exact .inl ha
    · rw [List.mem_singleton.mp ha] at hok
      cases hok

theorem Truthful.onBytesArrive (h : Truthful owner stored world) {writer : FrameWriter}
    (hwriter : world.writers[n]? = some writer) (count : Nat) :
    Truthful owner stored (world.onBytesArrive n writer count) := by
  apply h.mirror _ fun a ha _ => .inl ha
  intro v hv
  obtain hv | rfl := List.mem_or_eq_of_mem_set hv
  · exact h.writers v hv
  · exact h.writers writer (List.mem_of_getElem? hwriter)

theorem Truthful.onFrameCut (h : Truthful owner stored world) (n : Nat) (writer : FrameWriter)
    (acked : Bool) : Truthful owner stored (world.onFrameCut n writer acked) := by
  apply h.mirror fun v hv => h.writers v (List.mem_of_mem_eraseIdx hv)
  intro a ha hok
  obtain ha | ha := List.mem_append.mp ha
  · exact .inl ha
  · split at ha
    · rw [List.mem_singleton.mp ha] at hok
      cases hok
    · cases ha

theorem Truthful.onFrameWritten (h : Truthful owner stored world) {writer : FrameWriter}
    (hwriter : world.writers[n]? = some writer) (acked : Bool)
    (hstored : writer.written = writer.frame.data.length → stored writer.frame) :
    Truthful owner stored (world.onFrameWritten n writer acked) := by
  unfold World.onFrameWritten
  split
  · rename_i hall
    apply h.mirror fun v hv => h.writers v (List.mem_of_mem_eraseIdx hv)
    intro a ha _
    obtain ha | ha := List.mem_append.mp ha
    · exact .inl ha
    · split at ha
      · rw [List.mem_singleton.mp ha]
        have hframe := h.writers writer (List.mem_of_getElem? hwriter)
        exact .inr ⟨writer.frame, hframe, rfl, hstored hall⟩
      · cases ha
  · exact h

theorem Truthful.onSegmentRead (h : Truthful owner stored world)
    (hw : world.origin.writes[i]? = some w) (htask : w.task = .reading) (result : Except String Payload) :
    Truthful owner stored (world.onSegmentRead i w result) := by
  unfold World.onSegmentRead
  split
  · exact (h.finishTask i).answer nofun
  · cases result with
    | error => exact (h.finishTask i).answer nofun
    | ok data =>
      dsimp only
      split
      · exact h.handOver hw htask data
      · exact h

theorem Truthful.onDirectSent (h : Truthful owner stored world) {data : Payload}
    (hw : world.origin.writes[i]? = some w) (htask : w.task = .sending data) (error : Option String) :
    ∃ owner', Truthful owner' stored (world.onDirectSent i w data error) := by
  unfold World.onDirectSent
  cases error with
  | none => exact ⟨owner, h.finishTask i⟩
  | some =>
    cases hrekey : world.origin.rekeyCrossWriteToRelay i w.seq with
    | none => exact ⟨owner, h.finishTask i⟩
    | some found =>
      obtain ⟨relaySeq, origin'⟩ := found
      obtain ⟨-, -, hseq, hwrites, -⟩ := h.keeps.rekey hw hrekey
      have hdata : w.data = some data := by
        have hfits := h.tasks i w hw
        rwa [TaskFits, htask] at hfits
      have howner : grant owner world.origin i relaySeq = some i := by
        rw [hseq, grant, Function.update_self]
      let f : CrossWrite → CrossWrite := fun w => { w with task := .relaying data relaySeq }
      have hnow : origin'.writes[i]? = some { w with effectiveSeq := relaySeq } := by
        simp [hwrites, hw]
      have htold : Truthful (grant owner world.origin i) stored { world with
          origin := { origin' with writes := origin'.writes.modify i f } } := by
        apply (h.rekey hw hrekey).modify i f (fun _ => ⟨rfl, rfl, rfl⟩)
        · intro v hv
          obtain rfl := Option.some.inj (hnow.symm.trans hv)
          exact ⟨hdata, howner⟩
        · exact fun _ _ _ hsame => hsame
      have hsent : (origin'.writes.modify i f)[i]? = some (f { w with effectiveSeq := relaySeq }) := by
        simp [hnow]
      exact ⟨_, htold.send howner hsent hdata⟩

theorem Truthful.step (h : Truthful owner stored world) (event : WorldEvent)
    (hstored : ∀ v ∈ world.writers, v.written = v.frame.data.length → stored v.frame) :
    ∃ owner', Truthful owner' stored (world.step event) := by
  cases event with
  | write size hasSegment hasEndpoint => exact h.handleWrite size hasSegment hasEndpoint
  | segmentRead i result =>
    simp only [World.step]
    split
    · rename_i w hw
      split
      · rename_i htask
        exact ⟨owner, h.onSegmentRead hw htask result⟩
      · exact ⟨owner, h⟩
    · exact ⟨owner, h⟩
  | directSent i error =>
    simp only [World.step]
    split
    · rename_i w hw
      split
      · rename_i data htask
        exact h.onDirectSent hw htask error
      · exact ⟨owner, h⟩
    · exact ⟨owner, h⟩
  | relayPublished i error =>
    simp only [World.step]
    split
    · split
      · cases error with
        | none => exact ⟨owner, h.finishTask i⟩
        | some => exact ⟨owner, (h.finishTask i).answer nofun⟩
      · exact ⟨owner, h⟩
    · exact ⟨owner, h⟩
  | frameArrives frame opens =>
    simp only [World.step]
    split
    · rename_i htaken
      exact ⟨owner, h.onFrameArrives htaken.1 opens⟩
    · exact ⟨owner, h⟩
  | bytesArrive n count =>
    simp only [World.step]
    split
    · rename_i hwriter
      exact ⟨owner, h.onBytesArrive hwriter count⟩
    · exact ⟨owner, h⟩
  | frameCut n acked =>
    simp only [World.step]
    split
    · exact ⟨owner, h.onFrameCut n _ acked⟩
    · exact ⟨owner, h⟩
  | frameWritten n acked =>
    simp only [World.step]
    split
    · rename_i hwriter
      exact ⟨owner, h.onFrameWritten hwriter acked (hstored _ (List.mem_of_getElem? hwriter))⟩
    · exact ⟨owner, h⟩
  | ackArrives a =>
    simp only [World.step]
    split
    · rename_i ack hack
      refine ⟨owner, h.answer fun hreply => ?_⟩
      have hok : ack.ok = true := by
        by_contra hnot
        rw [if_neg hnot] at hreply
        cases hreply
      exact h.acks ack (List.mem_of_getElem? hack) hok
    · exact ⟨owner, h⟩
  | timeout =>
    simp only [World.step, Origin.fireCrossWriteTimeout]
    split
    · exact ⟨owner, h⟩
    · exact ⟨owner, h.answer nofun⟩
  | cleanupDataflow => exact ⟨owner, h.cleanupDataflow⟩

theorem truthful_registered (sharedMemoryId : String) (registeredSize : Nat) :
    Truthful (fun _ => none) stored (World.registered sharedMemoryId registeredSize) := by
  refine ⟨⟨fun q i => ?_, nofun, nofun, fun _ => nofun, nofun⟩, nofun, nofun, nofun, nofun, nofun⟩
  simp [World.registered]

theorem truthful_run (sharedMemoryId : String) (registeredSize : Nat) (events : List WorldEvent)
    (hstored : ∀ earlier, earlier <+: events →
      ∀ v ∈ (World.reached sharedMemoryId registeredSize earlier).writers,
        v.written = v.frame.data.length → stored v.frame) :
    ∃ owner, Truthful owner stored (World.reached sharedMemoryId registeredSize events) := by
  induction events using List.reverseRecOn with
  | nil => exact ⟨_, truthful_registered sharedMemoryId registeredSize⟩
  | append_singleton events event ih =>
    have hprefix : events <+: events ++ [event] := List.prefix_append _ _
    obtain ⟨owner, h⟩ := ih fun earlier he => hstored earlier (he.trans hprefix)
    rw [World.reached, List.foldl_concat]
    exact h.step event (hstored events hprefix)

/-- No frame begins to be stored while the other plane stores other bytes. -/
def Apart (world : World) : WorldEvent → Prop
  | .frameArrives frame opens => opens = true →
    ∀ v ∈ world.writers, v.frame.direct ≠ frame.direct → v.frame.data = frame.data
  | _ => True

instance (world : World) (event : WorldEvent) : Decidable (Apart world event) := by
  unfold Apart
  split <;> infer_instance

abbrev StoresApart (world : World) (events : List WorldEvent) : Prop :=
  Meets (fun world event => (World.step world event, ())) Apart world events

/-- The frames that are being stored have the same bytes, and the region has what came of each. -/
structure Storing (world : World) : Prop where
  size : world.region.length = world.registeredSize
  whole : ∀ v ∈ world.writers, v.frame.data.length = world.registeredSize
  same : ∀ v ∈ world.writers, ∀ v' ∈ world.writers, v.frame.data = v'.frame.data
  bytes : ∀ v ∈ world.writers, ∀ p < v.written, world.region[p]? = v.frame.data[p]?

theorem length_copyInto (region data : Payload) (start count : Nat) :
    (World.copyInto region data start count).length = region.length :=
  List.length_mapIdx

theorem getElem?_copyInto {region data : Payload} (hsize : region.length = data.length)
    (start count p : Nat) :
    (World.copyInto region data start count)[p]? =
      if start ≤ p ∧ p < start + count then data[p]? else region[p]? := by
  rw [World.copyInto, List.getElem?_mapIdx]
  by_cases hp : p < data.length
  · rw [List.getElem?_eq_getElem hp, List.getElem?_eq_getElem (hsize ▸ hp), Option.map_some,
      List.getD_eq_getElem _ _ hp]
    split <;> rfl
  · rw [List.getElem?_eq_none (by omega), List.getElem?_eq_none (by omega), ite_self, Option.map_none]

theorem Storing.onFrameArrives (h : Storing world) {frame : Frame} {opens : Bool}
    (hunlocked : world.locked frame.direct = false) (hapart : Apart world (.frameArrives frame opens)) :
    Storing (world.onFrameArrives frame opens) := by
  unfold World.onFrameArrives
  split
  · rename_i htaken
    simp only [Bool.and_eq_true, beq_iff_eq] at htaken
    have hother : ∀ v ∈ world.writers, v.frame.data = frame.data := by
      intro v hv
      apply hapart htaken.1 v hv
      simpa using List.any_eq_false.mp hunlocked v hv
    have hcases : ∀ v ∈ world.writers ++ [⟨frame, 0⟩], v ∈ world.writers ∨ v = ⟨frame, 0⟩ := by
      simp
    have hdata : ∀ v ∈ world.writers ++ [⟨frame, 0⟩], v.frame.data = frame.data := by
      intro v hv
      obtain hv | rfl := hcases v hv
      · exact hother v hv
      · rfl
    refine ⟨h.size, fun v hv => ?_, fun v hv v' hv' => (hdata v hv).trans (hdata v' hv').symm,
      fun v hv => ?_⟩
    · rw [hdata v hv, htaken.2]
    · obtain hv | rfl := hcases v hv
      · exact h.bytes v hv
      · exact nofun
  · exact ⟨h.size, h.whole, h.same, h.bytes⟩

theorem Storing.onBytesArrive (h : Storing world) {writer : FrameWriter}
    (hwriter : world.writers[n]? = some writer) (count : Nat) :
    Storing (world.onBytesArrive n writer count) := by
  have hmem := List.mem_of_getElem? hwriter
  have hsize : world.region.length = writer.frame.data.length := h.size.trans (h.whole writer hmem).symm
  have hdata : ∀ v ∈ (world.onBytesArrive n writer count).writers,
      v.frame.data = writer.frame.data := by
    intro v hv
    obtain hv | rfl := List.mem_or_eq_of_mem_set hv
    · exact h.same v hv writer hmem
    · rfl
  refine ⟨(length_copyInto _ _ _ _).trans h.size, fun v hv => ?_,
    fun v hv v' hv' => (hdata v hv).trans (hdata v' hv').symm, fun v hv p hp => ?_⟩
  · rw [hdata v hv]
    exact h.whole writer hmem
  · rw [hdata v hv]
    refine (getElem?_copyInto hsize _ _ p).trans ?_
    split
    · rfl
    · rename_i hold
      obtain hv | rfl := List.mem_or_eq_of_mem_set hv
      · rw [h.bytes v hv p hp, h.same v hv writer hmem]
      · apply h.bytes writer hmem p
        simp only at hp
        omega

theorem Storing.dropWriter (h : Storing world) (n : Nat) (acks : List WriteAck) :
    Storing { world with writers := world.writers.eraseIdx n, acks } := by
  have hback : ∀ v ∈ world.writers.eraseIdx n, v ∈ world.writers :=
    fun v hv => List.mem_of_mem_eraseIdx hv
  exact ⟨h.size, fun v hv => h.whole v (hback v hv),
    fun v hv v' hv' => h.same v (hback v hv) v' (hback v' hv'), fun v hv => h.bytes v (hback v hv)⟩

theorem Storing.onOrigin (h : Storing world) (origin' : Origin) (frames : List Frame) :
    Storing { world with origin := origin', frames } :=
  ⟨h.size, h.whole, h.same, h.bytes⟩

theorem Storing.step (h : Storing world) {event : WorldEvent} (hapart : Apart world event) :
    Storing (world.step event) := by
  cases event with
  | write | timeout | cleanupDataflow => exact h.onOrigin _ _
  | segmentRead =>
    simp only [World.step, World.onSegmentRead, World.handOver]
    repeat' split
    all_goals first | exact h | exact h.onOrigin _ _
  | directSent =>
    simp only [World.step, World.onDirectSent]
    repeat' split
    all_goals first | exact h | exact h.onOrigin _ _
  | relayPublished =>
    simp only [World.step, World.onRelayPublished]
    repeat' split
    all_goals first | exact h | exact h.onOrigin _ _
  | ackArrives =>
    simp only [World.step]
    split
    · exact h.onOrigin _ _
    · exact h
  | frameArrives frame opens =>
    simp only [World.step]
    split
    · rename_i htaken
      exact h.onFrameArrives htaken.2 hapart
    · exact h
  | bytesArrive =>
    simp only [World.step]
    split
    · rename_i hwriter
      exact h.onBytesArrive hwriter _
    · exact h
  | frameCut =>
    simp only [World.step]
    split
    · exact h.dropWriter _ _
    · exact h
  | frameWritten =>
    simp only [World.step, World.onFrameWritten]
    repeat' split
    all_goals first | exact h | exact h.dropWriter _ _

theorem storing_run (h : Storing world) (events : List WorldEvent) (hapart : StoresApart world events) :
    Storing (events.foldl World.step world) := by
  induction events generalizing world with
  | nil => exact h
  | cons event events ih => exact ih (h.step hapart.1) hapart.2

/-- The mirror has stored all of the frame, and the region has its bytes and no others. -/
def Filled (world : World) (frame : Frame) : Prop :=
  (∃ v ∈ world.writers, v.frame = frame ∧ v.written = frame.data.length) ∧ world.region = frame.data

theorem Storing.filled (h : Storing world) {v : FrameWriter} (hv : v ∈ world.writers)
    (hall : v.written = v.frame.data.length) : Filled world v.frame := by
  refine ⟨⟨v, hv, rfl, hall⟩, List.ext_getElem? fun p => ?_⟩
  by_cases hp : p < v.written
  · exact h.bytes v hv p hp
  · have hsize := h.size
    have hwhole := h.whole v hv
    rw [List.getElem?_eq_none (by omega), List.getElem?_eq_none (by omega)]

/-- At some time in the run the mirror was filled with the bytes that were read for the write, by a frame
of the number under which the write is answered. -/
def Delivered (sharedMemoryId : String) (registeredSize : Nat) (events : List WorldEvent)
    (w : CrossWrite) : Prop :=
  ∃ frame, frame.seq = w.effectiveSeq ∧ w.data = some frame.data ∧
    ∃ earlier, earlier <+: events ∧ Filled (World.reached sharedMemoryId registeredSize earlier) frame

theorem delivered_of_storesApart {sharedMemoryId : String} {registeredSize : Nat}
    {events : List WorldEvent}
    (hapart : StoresApart (World.registered sharedMemoryId registeredSize) events)
    (hw : (World.reached sharedMemoryId registeredSize events).origin.writes[i]? = some w)
    (hok : .ok () ∈ w.replies) : Delivered sharedMemoryId registeredSize events w := by
  let stored (frame : Frame) : Prop := ∃ earlier, earlier <+: events ∧
    Filled (World.reached sharedMemoryId registeredSize earlier) frame
  have hregistered : Storing (World.registered sharedMemoryId registeredSize) :=
    ⟨List.length_replicate, nofun, nofun, nofun⟩
  have hstored : ∀ earlier, earlier <+: events →
      ∀ v ∈ (World.reached sharedMemoryId registeredSize earlier).writers,
        v.written = v.frame.data.length → stored v.frame := by
    intro earlier he v hv hall
    obtain ⟨later, rfl⟩ := he
    have hmet := ((meets_append _ _ _ _).mp hapart).1
    exact ⟨earlier, List.prefix_append _ _, (storing_run hregistered earlier hmet).filled hv hall⟩
  obtain ⟨owner, h⟩ := truthful_run sharedMemoryId registeredSize events hstored
  obtain ⟨f, hf, hseq, hfilled⟩ := h.told i w hw hok
  obtain ⟨j, v, howner, hv, hdata⟩ := h.frames f hf
  -- the number of the frame is this write's, so the frame carries this write's bytes
  rw [hseq, (h.keeps.owned i w hw).2] at howner
  obtain rfl : i = j := Option.some.inj howner
  obtain rfl : w = v := Option.some.inj (hw.symm.trans hv)
  exact ⟨f, hseq, hdata, hfilled⟩

/-- In every run each write is answered at most once, and as long as it is unanswered its reply is pending
under the number its timeout task looks up, so that the timeout and the cleanup answer it. If no frame
begins to be stored while the other plane stores other bytes, a write is answered with `Ok` only after the
mirror was filled with the bytes that were read for it. -/
theorem cross_write_acknowledged_truthfully (sharedMemoryId : String) (registeredSize : Nat)
    (events : List WorldEvent) (i : Nat) (w : CrossWrite) :
    let world := World.reached sharedMemoryId registeredSize events
    world.origin.writes[i]? = some w →
      w.replies.length ≤ 1 ∧
      (StoresApart (World.registered sharedMemoryId registeredSize) events → .ok () ∈ w.replies →
        Delivered sharedMemoryId registeredSize events w) ∧
      (w.replies = [] → world.origin.pending[w.effectiveSeq]? = some i ∧
        (world.step (.timeout i)).origin.writes[i]? = some { w with replies :=
          [.error "cross-machine write timed out waiting for the remote commit ack"] } ∧
        (world.step .cleanupDataflow).origin.writes[i]? = some { w with replies :=
          [.error "dataflow finished before the cross-machine write was acknowledged"] }) := by
  intro world hw
  obtain ⟨owner, h⟩ : ∃ owner, Truthful owner (fun _ => True) world :=
    truthful_run sharedMemoryId registeredSize events fun _ _ _ _ _ => trivial
  refine ⟨h.keeps.once i w hw, fun hapart => delivered_of_storesApart hapart hw, fun hnil => ?_⟩
  refine ⟨h.keeps.unanswered hw hnil, ?_, ?_⟩
  · show (world.origin.fireCrossWriteTimeout i).writes[i]? = _
    simp only [Origin.fireCrossWriteTimeout, hw]
    rw [Origin.getElem?_writes_answer h.keeps, hw, Option.map_some, answered, if_pos ⟨hnil, rfl⟩]
  · show world.origin.cleanupDataflow.writes[i]? = _
    rw [getElem?_writes_cleanupDataflow h.keeps hw, if_pos hnil]

-- the direct send of the first write fails halfway, its frame is cut and the relay delivers it
theorem cross_write_acknowledged_truthfully_of_relay :
    let events := [.write 2 true true, .segmentRead 0 (.ok [7, 8]), .frameArrives ⟨1, [7, 8], true⟩ true,
      .bytesArrive 0 1, .directSent 0 (some "broken pipe"), .frameArrives ⟨2, [7, 8], false⟩ true,
      .frameCut 0 true, .bytesArrive 0 2, .frameWritten 0 true, .ackArrives 0, .ackArrives 1]
    ∃ w, (World.reached "pool_a" 2 events).origin.writes[0]? = some w ∧
      Delivered "pool_a" 2 events w :=
  ⟨_, rfl, (cross_write_acknowledged_truthfully "pool_a" 2 _ 0 _ rfl).2.1 (by decide) (.head _)⟩

-- The direct frame of a write stalls until the write is answered by its timeout. The next write cannot
-- connect, goes over the relay and is stored together with the first one, and the region has the bytes of
-- no write. A write that comes after the cleanup is local.
theorem cross_write_told_ok_over_mixed_bytes :
    let events := [.write 2 true true, .segmentRead 0 (.ok [1, 1]), .frameArrives ⟨1, [1, 1], true⟩ true,
      .timeout 0, .write 2 true true, .segmentRead 1 (.ok [2, 2]), .directSent 1 (some "connect timeout"),
      .frameArrives ⟨3, [2, 2], false⟩ true, .bytesArrive 1 1, .bytesArrive 0 1, .bytesArrive 1 1,
      .frameWritten 1 true, .ackArrives 0]
    ((World.reached "pool_a" 2 events).origin.writes.map fun w => (w.data, w.replies)) =
        [(some [1, 1], [.error "cross-machine write timed out waiting for the remote commit ack"]),
          (some [2, 2], [.ok ()])] ∧
      (∀ earlier ∈ events.inits, (World.reached "pool_a" 2 earlier).region ≠ [2, 2]) ∧
      (World.reached "pool_a" 2 [.cleanupDataflow, .write 2 true true]).origin.localReplies =
        [.ok ()] :=
  ⟨rfl, by decide, rfl⟩

end world

end Dora.TensorPool
