import Indexer.Proofs.Delivery.Step
import Mathlib.Algebra.GroupWithZero.Nat

/-! What the buffer of a delivery keeps, whatever is done to it and in whatever order. The number beside
the groups is that of their operations, no group is empty, and from its start on a delivery has less
waiting than fills a batch. This is why the loops that cut batches come to their end, and why a group
that does not fit finds the buffer empty after a single cut. -/
namespace Indexer

theorem Number.compareInt_eq_lt_of_eq {n : Number} {i j : Int} (h : n.compareInt i = some .eq)
    (hij : i < j) : n.compareInt j = some .lt := by
  cases n with
  | int a =>
      simp only [compareInt, Option.some.injEq, Int.compare_eq_eq, Int.compare_eq_lt] at h ⊢
      omega
  | float x =>
      simp only [compareInt] at h ⊢
      split at h
      · cases h
      · split at h <;> cases h
      · next negative m q _ =>
          have hDen : 0 < (dyadicRatio m q).2 := by
            rw [dyadicRatio, Nat.one_shiftLeft]
            exact Nat.two_pow_pos _
          simp only [Option.some.injEq, Int.compare_eq_eq, Int.compare_eq_lt] at h ⊢
          rw [h]
          exact Int.mul_lt_mul_of_pos_right hij (Int.natCast_pos.mpr hDen)

namespace Quantity

variable {q : Quantity} {i : Int}

/-- What is at least something is a number. -/
theorem compareInt_ne_none (h : q.isAtLeast i = true) (j : Int) : q.compareInt j ≠ none := by
  intro hNone
  have hNever (k : Int) : q.compareInt k = none := by
    obtain ⟨_ | x⟩ | b := q
    · cases hNone
    · exact Number.compareInt_float_eq_none_iff.mpr (Number.compareInt_float_eq_none_iff.mp hNone)
    · cases hNone
  simp [isAtLeast, isAbove, isExactly, hNever] at h

theorem isAbove_iff (h : q.isAtLeast i = true) (j : Int) :
    q.isAbove j = true ↔ q.isAtMost j = false := by
  rw [isAbove_eq_not_isAtMost (compareInt_ne_none h j), Bool.not_eq_true']

theorem isBelow_of_isAtMost {j : Int} (h : q.isAtMost i = true) (hij : i < j) :
    q.isBelow j = true := by
  simp only [isAtMost, isBelow, isExactly, Bool.or_eq_true, decide_eq_true_eq] at h ⊢
  rcases h with hBelow | hExactly
  · exact Number.compareInt_eq_lt_of_le hBelow hij.le
  · exact Number.compareInt_eq_lt_of_eq hExactly hij

theorem isAbove_of_isAtLeast {j : Int} (h : q.isAtLeast i = true) (hji : j < i) :
    q.isAbove j = true := by
  rw [isAbove_iff h, Bool.eq_false_iff]
  intro hAtMost
  have hBelow := isBelow_of_isAtMost hAtMost hji
  rw [isBelow_eq_false_of_isAtLeast h] at hBelow
  cases hBelow

end Quantity

namespace Buffer

variable {limit : Quantity} {b last : Buffer} {batch group : Batch} {added batches : List Batch}

/-- The number beside the groups is that of their operations, and no group is empty. -/
structure IsSound (b : Buffer) : Prop where
  count : b.count = b.groups.flatten.length
  filled : ∀ group ∈ b.groups, group ≠ []

/-- Less waits than fills a batch. -/
def HasRoom (limit : Quantity) (b : Buffer) : Prop := limit.isAbove b.count = true

theorem HasRoom.fits (h : HasRoom limit b) : limit.isBelow b.count = false := by
  rw [HasRoom, Quantity.isAbove, decide_eq_true_eq] at h
  simp [Quantity.isBelow, h]

theorem isSound_empty : empty.IsSound := ⟨rfl, nofun⟩

theorem IsSound.push (h : b.IsSound) (hGroup : group ≠ []) : (b.push group).IsSound where
  count := by rw [flatten_push, List.length_append, ← h.count]; rfl
  filled := List.forall_mem_append.mpr ⟨h.filled, List.forall_mem_singleton.mpr hGroup⟩

theorem IsSound.pushFront (h : b.IsSound) (ops : List Operation) : (b.pushFront ops).IsSound where
  count := by
    rw [flatten_pushFront, List.length_append, ← h.count, Nat.add_comm]
    rfl
  filled := by
    refine List.forall_mem_append.mpr ⟨fun group hGroup => ?_, h.filled⟩
    obtain ⟨op, _, rfl⟩ := List.mem_map.mp hGroup
    exact List.cons_ne_nil op []

theorem count_of_cut (h : b.cut limit = some (batch, last)) : last.count = b.count - batch.length := by
  unfold cut at h
  split at h
  · cases h
  · simp only [Option.some.injEq, Prod.mk.injEq] at h
    obtain ⟨rfl, rfl⟩ := h
    rfl

/-- A cut takes as many operations off the number as it takes out of the groups. -/
theorem IsSound.cut (h : b.IsSound) (hCut : b.cut limit = some (batch, last)) : last.IsSound := by
  obtain ⟨taken, _, hGroups, rfl, _⟩ := groups_of_cut hCut
  refine ⟨?_, fun group hGroup => h.filled group (hGroups ▸ List.mem_append_right taken hGroup)⟩
  rw [count_of_cut hCut, h.count, hGroups, List.flatten_append, List.length_append,
    Nat.add_sub_cancel_left]

theorem IsSound.packs (h : b.IsSound) (hPacks : b.Packs limit added batches last) : last.IsSound := by
  induction hPacks with
  | done b => exact h
  | cut hCut _ ih => exact ih (h.cut hCut)
  | push hGroup _ ih => exact ih (h.push hGroup)

/-- Cutting alone leaves no more than there was. -/
theorem count_of_packs (hPacks : b.Packs limit added batches last) (hAdded : added = []) :
    last.count ≤ b.count := by
  induction hPacks with
  | done b => exact le_refl _
  | cut hCut _ ih => exact (ih hAdded).trans (count_of_cut hCut ▸ Nat.sub_le _ _)
  | push => cases hAdded

theorem takeFitting_of_fits {size : Nat} {groups : List Batch}
    (h : limit.isBelow (size + groups.flatten.length : Nat) = false) :
    takeFitting limit size groups = (groups, []) := by
  induction groups generalizing size with
  | nil => rfl
  | cons group rest ih =>
      rw [List.flatten_cons, List.length_append, ← Nat.add_assoc] at h
      have hFirst : limit.isBelow (size + group.length : Nat) = false := by
        rw [Bool.eq_false_iff] at h ⊢
        exact fun hBelow => h (Quantity.isBelow_of_le hBelow (by omega))
      simp only [takeFitting, hFirst, Bool.false_eq_true, if_false, ih h]

/-- A buffer that holds no more than a batch is emptied by a single cut. -/
theorem IsSound.cut_of_fits (h : b.IsSound) (hSome : 0 < b.count)
    (hFits : limit.isBelow b.count = false) : b.cut limit = some (b.groups.flatten, empty) := by
  obtain ⟨groups, count⟩ := b
  obtain rfl : count = groups.flatten.length := h.count
  cases groups with
  | nil => cases hSome
  | cons group rest =>
      simp only [List.flatten_cons, List.length_append] at hFits
      simp only [Buffer.cut, takeFitting_of_fits hFits, Nat.sub_self]
      rfl

/-- There are enough operations for a full batch. -/
def isFull (limit : Quantity) (b : Buffer) : Bool := limit.isAtMost b.count

def holdsSome (b : Buffer) : Bool := !b.groups.isEmpty

/-- One flush: the batch that is cut, if there is one, and what stays. -/
def flushed (limit : Quantity) (b : Buffer) : List Batch × Buffer :=
  match b.cut limit with
  | none => ([], b)
  | some (batch, rest) => ([batch], rest)

/-- A loop that flushes as long as a test passes comes to its end after some flushes, with the batches
that were cut and what stays. A loop that goes on for ever has no such course: a flush of an empty
buffer, which changes nothing, is counted like any other. -/
inductive Flushes (limit : Quantity) (goesOn : Buffer → Bool) :
    Nat → Buffer → List Batch → Buffer → Prop where
  | leave {b : Buffer} (hEnd : goesOn b = false) : Flushes limit goesOn 0 b [] b
  | again {n : Nat} {b last : Buffer} {batches : List Batch} (hOn : goesOn b = true)
      (hMore : Flushes limit goesOn n (b.flushed limit).2 batches last) :
      Flushes limit goesOn (n + 1) b ((b.flushed limit).1 ++ batches) last

/-- A loop has one course at most. -/
theorem Flushes.unique {goesOn : Buffer → Bool} {n n' : Nat} {last' : Buffer} {batches' : List Batch}
    (h : Flushes limit goesOn n b batches last) (h' : Flushes limit goesOn n' b batches' last') :
    n = n' ∧ batches = batches' ∧ last = last' := by
  induction h generalizing n' batches' with
  | leave hEnd =>
      cases h' with
      | leave => exact ⟨rfl, rfl, rfl⟩
      | again hOn => simp [hEnd] at hOn
  | again hOn _ ih =>
      cases h' with
      | leave hEnd => simp [hEnd] at hOn
      | again _ hMore =>
          obtain ⟨rfl, rfl, rfl⟩ := ih hMore
          exact ⟨rfl, rfl, rfl⟩

theorem Flushes.of_cut {goesOn : Buffer → Bool} {n : Nat} {rest : Buffer} (hOn : goesOn b = true)
    (hCut : b.cut limit = some (batch, rest)) (h : Flushes limit goesOn n rest batches last) :
    Flushes limit goesOn (n + 1) b (batch :: batches) last := by
  have hFlushed : b.flushed limit = ([batch], rest) := by rw [flushed, hCut]
  have hMore : Flushes limit goesOn n (b.flushed limit).2 batches last := by rwa [hFlushed]
  have hAgain := Flushes.again hOn hMore
  rwa [hFlushed] at hAgain

/-- Where there is room there is no full batch. -/
theorem hasRoom_iff (hLimit : limit.isAtLeast 1 = true) : HasRoom limit b ↔ isFull limit b = false :=
  Quantity.isAbove_iff hLimit b.count

/-- In a sound buffer a full batch can be cut, so the loop ends, and leaves room. -/
theorem IsSound.flushes_cutWhileFull (h : b.IsSound) (hLimit : limit.isAtLeast 1 = true) :
    HasRoom limit (b.cutWhileFull limit).2 ∧ ∃ n ≤ b.groups.length,
      Flushes limit (isFull limit) n b (b.cutWhileFull limit).1 (b.cutWhileFull limit).2 := by
  induction b using cut_induction limit with
  | empty b hCut =>
      have hNone := cut_eq_none_iff.mp hCut
      have hRoom : HasRoom limit b := by
        rw [HasRoom, h.count, hNone]
        exact Quantity.isAbove_of_isAtLeast hLimit (by decide)
      rw [cutWhileFull_of_empty hNone]
      exact ⟨hRoom, 0, Nat.zero_le _, .leave ((hasRoom_iff hLimit).mp hRoom)⟩
  | more b batch rest hCut ih =>
      cases hFull : isFull limit b with
      | false =>
          have hStays : b.cutWhileFull limit = ([], b) := by
            rw [cutWhileFull, if_pos (by simpa [isFull] using hFull)]
          rw [hStays]
          exact ⟨(hasRoom_iff hLimit).mpr hFull, 0, Nat.zero_le _, .leave hFull⟩
      | true =>
          obtain ⟨hRoom, n, hBound, hFlushes⟩ := ih (h.cut hCut)
          rw [cutWhileFull_of_cut hFull hCut]
          exact ⟨hRoom, n + 1, Nat.succ_le_of_lt (hBound.trans_lt (length_cut hCut)),
            .of_cut hFull hCut hFlushes⟩

theorem flushes_cutAll (limit : Quantity) (b : Buffer) : ∃ n ≤ b.groups.length,
    Flushes limit holdsSome n b (b.cutAll limit).1 (b.cutAll limit).2 := by
  induction b using cut_induction limit with
  | empty b hCut =>
      have hNone := cut_eq_none_iff.mp hCut
      rw [cutAll_of_empty hNone]
      exact ⟨0, Nat.zero_le _, .leave (by simp [holdsSome, hNone])⟩
  | more b batch rest hCut ih =>
      obtain ⟨n, hBound, hFlushes⟩ := ih
      have hSome : holdsSome b = true := by
        cases hGroups : b.groups with
        | nil => simp [cut_eq_none_iff.mpr hGroups] at hCut
        | cons => simp [holdsSome, hGroups]
      rw [cutAll_of_cut hCut]
      exact ⟨n + 1, Nat.succ_le_of_lt (hBound.trans_lt (length_cut hCut)),
        .of_cut hSome hCut hFlushes⟩

/-- What can become of a buffer. Without a queue to hand them to, batches are cut and lost, and what
is put back may stay. -/
inductive Rearranged (limit : Quantity) (hasQueue : Bool) (b : Buffer) : Buffer → Prop where
  | cut {batches : List Batch} {b' : Buffer} (hPacks : b.Packs limit [] batches b') :
      Rearranged limit hasQueue b b'
  | add (group : Batch) (hGroup : group ≠ []) : Rearranged limit hasQueue b (b.add limit group).2
  | putBack (ops : List Operation) :
      Rearranged limit hasQueue b ((b.pushFront ops).cutWhileFull limit).2
  | unsent {ops : List Operation} {batches : List Batch} {b' : Buffer} (hQueue : hasQueue = false)
      (hPacks : (b.pushFront ops).Packs limit [] batches b') : Rearranged limit hasQueue b b'
  | emptied : Rearranged limit hasQueue b .empty

variable {hasQueue : Bool} {b' : Buffer}

theorem Rearranged.refl : Rearranged limit hasQueue b b := .cut (.done b)

theorem IsSound.rearranged (h : b.IsSound) (hNext : Rearranged limit hasQueue b b') : b'.IsSound := by
  cases hNext with
  | cut hPacks => exact h.packs hPacks
  | add group hGroup => exact h.packs (packs_add limit b hGroup)
  | putBack ops => exact (h.pushFront ops).packs (packs_cutWhileFull limit _)
  | unsent _ hPacks => exact (h.pushFront _).packs hPacks
  | emptied => exact isSound_empty

/-- The group does not fit next to what waits. -/
def crowds (limit : Quantity) (b : Buffer) (group : Batch) : Bool :=
  0 < b.count && limit.isBelow (b.count + group.length : Nat)

theorem add_of_fits (hFits : b.crowds limit group = false) :
    b.add limit group = (b.push group).cutWhileFull limit := by
  rw [crowds] at hFits
  rw [add, if_neg (ne_true_of_eq_false hFits)]
  rfl

theorem IsSound.cut_of_crowds (h : b.IsSound) (hRoom : HasRoom limit b)
    (hCrowds : b.crowds limit group = true) : b.cut limit = some (b.groups.flatten, empty) :=
  h.cut_of_fits (of_decide_eq_true (Bool.and_eq_true_iff.mp hCrowds).1) hRoom.fits

/-- A group that does not fit stands alone in the buffer, behind a batch of all that waited. -/
theorem IsSound.add_of_crowds (h : b.IsSound) (hRoom : HasRoom limit b)
    (hCrowds : b.crowds limit group = true) :
    b.add limit group = (b.groups.flatten :: ((empty.push group).cutWhileFull limit).1,
      ((empty.push group).cutWhileFull limit).2) := by
  have hCut := h.cut_of_crowds hRoom hCrowds
  rw [crowds] at hCrowds
  rw [add, if_pos hCrowds, hCut]
  rfl

theorem HasRoom.rearranged (hRoom : HasRoom limit b) (h : b.IsSound)
    (hLimit : limit.isAtLeast 1 = true) (hNext : Rearranged limit true b b') : HasRoom limit b' := by
  cases hNext with
  | cut hPacks =>
      exact Quantity.isAbove_of_le hRoom (Int.ofNat_le.mpr (count_of_packs hPacks rfl))
  | add group hGroup =>
      cases hCrowds : b.crowds limit group with
      | true =>
          rw [h.add_of_crowds hRoom hCrowds]
          exact ((isSound_empty.push hGroup).flushes_cutWhileFull hLimit).1
      | false =>
          rw [add_of_fits hCrowds]
          exact ((h.push hGroup).flushes_cutWhileFull hLimit).1
  | putBack ops => exact ((h.pushFront ops).flushes_cutWhileFull hLimit).1
  | unsent hQueue => cases hQueue
  | emptied => exact Quantity.isAbove_of_isAtLeast hLimit (by decide)

end Buffer

namespace Delivery

variable {d d' : Delivery}

/-- What a delivery may do with its buffer. It never loses its queue. -/
structure Handled (d d' : Delivery) : Prop where
  settings : d'.settings = d.settings
  queue : d.queue.isSome = true → d'.queue.isSome = true
  buffer : d.buffer.Rearranged d.limit d.queue.isSome d'.buffer

theorem handled_of_same (hSettings : d'.settings = d.settings)
    (hQueue : d.queue.isSome = true → d'.queue.isSome = true) (hBuffer : d'.buffer = d.buffer) :
    Handled d d' := ⟨hSettings, hQueue, hBuffer ▸ .refl⟩

/-- Nothing but the queue, the buffer and the settings matters. -/
theorem Handled.of_same {d₁ : Delivery} (h : Handled d₁ d')
    (hSame : d₁.settings = d.settings ∧ d₁.queue = d.queue ∧ d₁.buffer = d.buffer) :
    Handled d d' := by
  obtain ⟨hSettings, hQueue, hBuffer⟩ := hSame
  have hLimit : d₁.limit = d.limit := congrArg Settings.bulkSize hSettings
  exact ⟨h.settings.trans hSettings, hQueue ▸ h.queue, hLimit ▸ hQueue ▸ hBuffer ▸ h.buffer⟩

theorem cut_handled {batches : List Batch} {b : Buffer}
    (hPacks : d.buffer.Packs d.limit [] batches b) : Handled d (d.enqueue (batches, b)).1 := by
  unfold enqueue
  split
  · exact ⟨rfl, id, .cut hPacks⟩
  · exact ⟨rfl, fun _ => rfl, .cut hPacks⟩
  · split
    · exact handled_of_same rfl id rfl
    · next hCut => exact ⟨rfl, id, .cut (.cut hCut (.done _))⟩

theorem flush_handled (d : Delivery) : Handled d d.flush.1 := by
  unfold flush
  split
  · exact handled_of_same rfl id rfl
  · next hCut => exact cut_handled (.cut hCut (.done _))

theorem flushAll_handled (d : Delivery) : Handled d d.flushAll.1 :=
  cut_handled (Buffer.packs_cutAll d.limit d.buffer)

theorem addGroup_handled (d : Delivery) (group : Batch) : Handled d (d.addGroup group).1 := by
  unfold addGroup
  split
  · exact handled_of_same rfl id rfl
  · split
    · exact handled_of_same rfl id rfl
    · split
      · exact handled_of_same rfl id rfl
      · next hGroup =>
          have hAdd : d.buffer.Rearranged d.limit d.queue.isSome (d.buffer.add d.limit group).2 :=
            .add group (mt List.isEmpty_iff.mpr hGroup)
          unfold enqueue
          split
          · exact ⟨rfl, id, hAdd⟩
          · exact ⟨rfl, fun _ => rfl, hAdd⟩
          · split
            · exact handled_of_same rfl id rfl
            · next hCut => exact ⟨rfl, id, .cut (.cut hCut (.done _))⟩

theorem requeue_handled (d : Delivery) (ops : List Operation) : Handled d (d.requeue ops).1 := by
  unfold requeue
  split
  · exact handled_of_same rfl id rfl
  · split
    · exact handled_of_same rfl id rfl
    · unfold enqueue
      dsimp only
      split
      · exact ⟨rfl, id, .putBack ops⟩
      · exact ⟨rfl, fun _ => rfl, .putBack ops⟩
      · next hQueue =>
          split
          · exact ⟨rfl, id, .unsent (by simp [hQueue]) (.done _)⟩
          · next hCut => exact ⟨rfl, id, .unsent (by simp [hQueue]) (.cut hCut (.done _))⟩

theorem abort_handled (d : Delivery) : Handled d d.abort := by
  unfold abort
  split
  · exact handled_of_same rfl id rfl
  · dsimp only
    split
    · exact ⟨rfl, fun h => by simpa using h, .emptied⟩
    · exact ⟨rfl, fun h => by simpa [note] using h, .emptied⟩

theorem flushToClose_handled (d : Delivery) : Handled d d.flushToClose := by
  unfold flushToClose
  split
  · exact abort_handled d
  · have h := flushAll_handled d
    exact ⟨h.settings, h.queue, h.buffer⟩

theorem take_handled (d : Delivery) : Handled d d.take := by
  unfold take
  split
  · exact handled_of_same rfl id rfl
  · split
    · exact handled_of_same rfl id rfl
    · split <;> exact handled_of_same rfl (fun _ => rfl) rfl
  · exact handled_of_same rfl id rfl

theorem giveUp_handled (d : Delivery) (f : Fault) : Handled d (d.giveUp f) := by
  obtain ⟨_, _, _, hEq⟩ := giveUp_eq d f
  exact hEq ▸ handled_of_same rfl id rfl

theorem follow_handled (d : Delivery) (batchFailed : Bool) (decision : Decision) :
    Handled d (d.follow batchFailed decision) := by
  unfold follow
  dsimp only
  split
  · exact (giveUp_handled _ _).of_same ⟨rfl, rfl, rfl⟩
  · exact handled_of_same rfl id rfl
  · split
    · exact handled_of_same rfl id rfl
    · split
      · exact handled_of_same rfl id rfl
      · exact (requeue_handled _ _).of_same ⟨rfl, rfl, rfl⟩

theorem failed_handled (d : Delivery) (batch : Batch) (f : Fault) : Handled d (d.failed batch f) := by
  unfold failed
  generalize (if f.osKind? = some .timeout then _ else f) = cause
  dsimp only
  split
  · exact follow_handled d true _
  · exact giveUp_handled d cause

theorem responded_handled (d : Delivery) (now : DateTime) (batch : Batch) (raw : Json) :
    Handled d (d.responded now batch raw) := by
  unfold responded
  dsimp only
  split
  · exact (failed_handled _ _ _).of_same ⟨rfl, rfl, rfl⟩
  · exact (follow_handled _ _ _).of_same ⟨rfl, rfl, rfl⟩

theorem answer_handled (d : Delivery) (now : DateTime) (reply : Except Fault Json) :
    Handled d (d.answer now reply) := by
  unfold answer
  split
  · cases reply with
    | ok raw => exact (responded_handled _ _ _ _).of_same ⟨rfl, rfl, rfl⟩
    | error f => exact (failed_handled _ _ _).of_same ⟨rfl, rfl, rfl⟩
  · exact handled_of_same rfl id rfl

theorem proceed_handled (d : Delivery) : Handled d d.proceed := by
  rcases d.proceed_frame with ⟨_, _, hFrame⟩ | ⟨_, hFlush⟩
  · rw [hFrame]
    exact handled_of_same rfl id rfl
  · rw [hFlush]
    exact flushToClose_handled d

theorem step_handled (d : Delivery) (e : Event) : Handled d (d.step e) := by
  cases e with
  | start =>
      change Handled d (if (d.queue.getD []).isEmpty then d.start else d)
      unfold start
      split
      · split
        · exact handled_of_same rfl (fun _ => rfl) rfl
        · exact handled_of_same rfl id rfl
      · exact handled_of_same rfl id rfl
  | add group => exact addGroup_handled d group
  | flush => exact flush_handled d
  | flushAll => exact flushAll_handled d
  | tick =>
      change Handled d d.tick
      unfold tick
      split
      · exact flushAll_handled d
      · exact handled_of_same rfl id rfl
  | take => exact take_handled d
  | answer now reply => exact answer_handled d now reply
  | expire now =>
      change Handled d (d.expire now)
      unfold expire
      split
      · exact answer_handled d now _
      · exact handled_of_same rfl id rfl
  | wake =>
      change Handled d d.wake
      unfold wake
      split
      · exact (requeue_handled _ _).of_same ⟨rfl, rfl, rfl⟩
      · exact handled_of_same rfl id rfl
  | close =>
      change Handled d d.close
      unfold close
      split
      · exact flushToClose_handled d
      · exact handled_of_same rfl id rfl
  | proceed => exact proceed_handled d
  | abort => exact abort_handled d
  | abandon =>
      change Handled d d.abandon
      unfold abandon
      split <;> exact handled_of_same rfl id rfl

/-- What is done to a delivery: an event, or operations are put back by hand, which is otherwise left
to the sender. -/
inductive Act where
  | event (e : Event)
  | putBack (ops : List Operation)

def act (d : Delivery) : Act → Delivery
  | .event e => d.step e
  | .putBack ops => (d.requeue ops).1

def perform (d : Delivery) (acts : List Act) : Delivery := acts.foldl act d

theorem act_handled (d : Delivery) (a : Act) : Handled d (d.act a) := by
  cases a with
  | event e => exact step_handled d e
  | putBack ops => exact requeue_handled d ops

theorem perform_settings (d : Delivery) (acts : List Act) :
    (d.perform acts).settings = d.settings := by
  induction acts generalizing d with
  | nil => rfl
  | cons a acts ih => exact (ih (d.act a)).trans (act_handled d a).settings

theorem isSound_perform (h : d.buffer.IsSound) (acts : List Act) : (d.perform acts).buffer.IsSound := by
  induction acts generalizing d with
  | nil => exact h
  | cons a acts ih => exact ih (h.rearranged (act_handled d a).buffer)

/-- With a queue to hand batches to, a delivery keeps room in its buffer. -/
structure Roomy (d : Delivery) : Prop where
  limit : d.limit.isAtLeast 1 = true
  queue : d.queue.isSome = true
  sound : d.buffer.IsSound
  room : d.buffer.HasRoom d.limit

theorem Roomy.handled (h : d.Roomy) (hNext : Handled d d') : d'.Roomy := by
  have hLimit : d'.limit = d.limit := congrArg Settings.bulkSize hNext.settings
  have hBuffer := hNext.buffer
  rw [h.queue] at hBuffer
  exact ⟨hLimit ▸ h.limit, hNext.queue h.queue, h.sound.rearranged hBuffer,
    hLimit ▸ h.room.rearranged h.sound h.limit hBuffer⟩

theorem Roomy.perform (h : d.Roomy) (acts : List Act) : (d.perform acts).Roomy := by
  induction acts generalizing d with
  | nil => exact h
  | cons a acts ih => exact ih (h.handled (act_handled d a))

/-- Groups are taken in. -/
def accepts (d : Delivery) : Prop := d.fatal = none ∧ d.stage ≠ .idle ∧ d.aborting = false

/-- A loop of flushes that begins with a buffer, after some batches were cut already, comes to its end
within as many flushes as there are groups. The call of which it is a part returns, with what stays in
the buffer, and with all that was cut in the queue. -/
def LoopEnds {α : Type} (d : Delivery) (goesOn : Buffer → Bool) (cut : List Batch) (b : Buffer)
    (r : Delivery × Except Fault α) : Prop :=
  ∃ n batches queue, n ≤ b.groups.length ∧ b.Flushes d.limit goesOn n batches r.1.buffer ∧
    d.queue = some queue ∧ r.1.queue = some (queue ++ cut ++ batches) ∧ ∃ a, r.2 = .ok a

theorem addGroup_of_accepts (hAccepts : d.accepts) {group : Batch} (hGroup : group ≠ [])
    {queue : List Batch} (hQueue : d.queue = some queue) :
    d.addGroup group = ({ d with
      buffer := (d.buffer.add d.limit group).2,
      queue := some (queue ++ (d.buffer.add d.limit group).1) }, .ok ()) := by
  obtain ⟨hFatal, hStage, hAborting⟩ := hAccepts
  simp [addGroup, hFatal, hStage, hAborting, hGroup, enqueue_eq hQueue]

theorem Roomy.addGroup_of_fits (h : d.Roomy) (hAccepts : d.accepts) {group : Batch}
    (hGroup : group ≠ []) (hFits : d.buffer.crowds d.limit group = false) :
    d.LoopEnds (Buffer.isFull d.limit) [] (d.buffer.push group) (d.addGroup group) := by
  obtain ⟨queue, hQueue⟩ := Option.isSome_iff_exists.mp h.queue
  obtain ⟨_, n, hBound, hFlushes⟩ := (h.sound.push hGroup).flushes_cutWhileFull h.limit
  rw [addGroup_of_accepts hAccepts hGroup hQueue, Buffer.add_of_fits hFits]
  refine ⟨n, _, queue, hBound, hFlushes, hQueue, ?_, (), rfl⟩
  rw [List.append_nil]

theorem Roomy.addGroup_of_crowds (h : d.Roomy) (hAccepts : d.accepts) {group : Batch}
    (hGroup : group ≠ []) (hCrowds : d.buffer.crowds d.limit group = true) :
    d.LoopEnds (Buffer.isFull d.limit) [d.buffer.groups.flatten] (Buffer.empty.push group)
      (d.addGroup group) := by
  obtain ⟨queue, hQueue⟩ := Option.isSome_iff_exists.mp h.queue
  obtain ⟨_, n, hBound, hFlushes⟩ :=
    (Buffer.isSound_empty.push hGroup).flushes_cutWhileFull h.limit
  rw [addGroup_of_accepts hAccepts hGroup hQueue, h.sound.add_of_crowds h.room hCrowds]
  refine ⟨n, _, queue, hBound, hFlushes, hQueue, ?_, (), rfl⟩
  rw [List.append_assoc, List.singleton_append]

theorem Roomy.requeue_ends (h : d.Roomy) {ops : List Operation} (hOps : ops ≠ [])
    (hAborting : d.aborting = false) :
    d.LoopEnds (Buffer.isFull d.limit) [] (d.buffer.pushFront ops) (d.requeue ops) := by
  obtain ⟨queue, hQueue⟩ := Option.isSome_iff_exists.mp h.queue
  obtain ⟨_, n, hBound, hFlushes⟩ := (h.sound.pushFront ops).flushes_cutWhileFull h.limit
  have hEnqueue := enqueue_eq (d := { d with buffer := d.buffer.pushFront ops }) hQueue
    ((d.buffer.pushFront ops).cutWhileFull d.limit)
  rw [requeue, if_neg (mt List.isEmpty_iff.mp hOps), if_neg (ne_true_of_eq_false hAborting), hEnqueue]
  refine ⟨n, _, queue, hBound, hFlushes, hQueue, ?_, (), rfl⟩
  rw [List.append_nil]

theorem Roomy.flushAll_ends (h : d.Roomy) : d.LoopEnds Buffer.holdsSome [] d.buffer d.flushAll := by
  obtain ⟨queue, hQueue⟩ := Option.isSome_iff_exists.mp h.queue
  obtain ⟨n, hBound, hFlushes⟩ := Buffer.flushes_cutAll d.limit d.buffer
  rw [flushAll, enqueue_eq hQueue]
  refine ⟨n, _, queue, hBound, hFlushes, hQueue, ?_, _, rfl⟩
  rw [List.append_nil]

theorem roomy_start (settings : Settings) (store : Store)
    (hLimit : settings.bulkSize.isAtLeast 1 = true) : (create settings store).start.Roomy where
  limit := hLimit
  queue := rfl
  sound := Buffer.isSound_empty
  room := Quantity.isAbove_of_isAtLeast hLimit Int.one_pos

/-- Whatever is done to a delivery, the number of waiting operations is that of its groups, and no group
is empty. If it was started first, less waits than fills a batch, and every loop that cuts batches
comes to its end: after a group came in, after operations were put back, and when all is flushed. For a
group that does not fit, one cut empties the buffer, and the group is the first to be put into it. -/
theorem buffer_stays_in_order {settings : Settings} {store : Store} {acts : List Act}
    (hLimit : settings.bulkSize.isAtLeast 1 = true)
    (hPerform : (create settings store).perform acts = d) :
    d.limit = settings.bulkSize ∧ d.pending = (d.buffer.groups.map List.length).sum ∧
    (∀ group ∈ d.buffer.groups, group ≠ []) ∧
    (acts.head? = some (.event .start) →
      d.limit.isAbove d.pending = true ∧
      (∀ group ≠ [], d.accepts →
        (d.buffer.crowds d.limit group = false →
          d.LoopEnds (Buffer.isFull d.limit) [] (d.buffer.push group) (d.addGroup group)) ∧
        (d.buffer.crowds d.limit group = true →
          d.buffer.cut d.limit = some (d.buffer.groups.flatten, .empty) ∧
          d.LoopEnds (Buffer.isFull d.limit) [d.buffer.groups.flatten] (Buffer.empty.push group)
            (d.addGroup group))) ∧
      (∀ ops ≠ [], d.aborting = false →
        d.LoopEnds (Buffer.isFull d.limit) [] (d.buffer.pushFront ops) (d.requeue ops)) ∧
      d.LoopEnds Buffer.holdsSome [] d.buffer d.flushAll) := by
  have hSettings : d.settings = settings := hPerform ▸ perform_settings _ acts
  have hSound : d.buffer.IsSound := hPerform ▸ isSound_perform Buffer.isSound_empty acts
  refine ⟨congrArg Settings.bulkSize hSettings, hSound.count.trans List.length_flatten,
    hSound.filled, fun hFirst => ?_⟩
  obtain ⟨later, rfl⟩ := List.head?_eq_some_iff.mp hFirst
  have hRoomy : d.Roomy := hPerform ▸ (roomy_start settings store hLimit).perform later
  exact ⟨hRoomy.room,
    fun group hGroup hAccepts => ⟨hRoomy.addGroup_of_fits hAccepts hGroup, fun hCrowds =>
      ⟨hRoomy.sound.cut_of_crowds hRoomy.room hCrowds,
        hRoomy.addGroup_of_crowds hAccepts hGroup hCrowds⟩⟩,
    fun ops hOps hAborting => hRoomy.requeue_ends hOps hAborting, hRoomy.flushAll_ends⟩

/-- Two operations wait, one of them put back, when a group of two comes in and batches hold three. -/
theorem crowdedBuffer_stays_in_order :
    let settings := { Settings.initial ⟨0, []⟩ with bulkSize := .whole 3 }
    let op (id : String) : Operation := ⟨.delete, id, none, 0⟩
    let d := (create settings .empty).perform
      [.event .start, .event (.add [op "a"]), .putBack [op "b"]]
    d.pending = 2 ∧ d.limit.isAbove d.pending = true ∧
      d.buffer.crowds d.limit [op "c", op "d"] = true ∧
      d.buffer.cut d.limit = some ([op "b", op "a"], .empty) ∧
      d.LoopEnds (Buffer.isFull d.limit) [[op "b", op "a"]] (Buffer.empty.push [op "c", op "d"])
        (d.addGroup [op "c", op "d"]) ∧
      d.LoopEnds Buffer.holdsSome [] d.buffer d.flushAll := by
  intro settings op d
  have hLimit : settings.bulkSize.isAtLeast 1 = true := by decide +kernel
  have hPerform : (create settings .empty).perform
    [.event .start, .event (.add [op "a"]), .putBack [op "b"]] = d := rfl
  obtain ⟨_, _, _, hStarted⟩ := buffer_stays_in_order hLimit hPerform
  obtain ⟨hRoom, hAdd, _, hFlushAll⟩ := hStarted rfl
  have hAccepts : d.accepts :=
    ⟨Option.isNone_iff_eq_none.mp (by decide +kernel), by decide +kernel, by decide +kernel⟩
  have hCrowds : d.buffer.crowds d.limit [op "c", op "d"] = true := by decide +kernel
  have hWaiting : d.buffer.groups.flatten = [op "b", op "a"] := by decide +kernel
  obtain ⟨hCut, hLoop⟩ := (hAdd _ (by decide +kernel) hAccepts).2 hCrowds
  rw [hWaiting] at hCut hLoop
  exact ⟨by decide +kernel, hRoom, hCrowds, hCut, hLoop, hFlushAll⟩

end Delivery
end Indexer
