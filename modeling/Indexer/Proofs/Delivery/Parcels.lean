import Indexer.Proofs.Delivery.Endings
import Indexer.Proofs.Delivery.Shipments

/-! Operations that go back from one request, kept together. They are put into
the buffer one by one, so that a batch can end between two of them. As long as
what goes back has room in one batch, together with what went back before and
still waits, the next batch takes all of it, and requests are made of whole returns
and whole groups. -/
namespace Indexer

/-- A batch by the requests that its operations went back from. -/
structure Parcel where
  /-- What went back from earlier requests. -/
  returns : List (List Operation)
  /-- Groups that are sent for the first time. -/
  groups : List Batch

def Parcel.batch (p : Parcel) : Batch := p.returns.flatten ++ p.groups.flatten

/-- What goes back from a request: some of its operations in their order, for their next attempt. -/
def Returned (batch : Batch) (again : List Operation) : Prop :=
  ∃ tried : List Operation, tried.Sublist batch ∧ again = tried.map Operation.again

theorem Retried.returned {c c' : Coordinator} {batch : Batch} {again : List Operation}
    (h : Retried c batch again c') : Returned batch again := by
  cases h with
  | answered tried _ hTried => exact ⟨tried, hTried, rfl⟩
  | unreached | malformed => exact ⟨batch, List.Sublist.refl batch, rfl⟩

/-- What a sender rests with went back from one request. -/
def Sender.rested : Sender → List (List Operation)
  | .pausing ops => [ops]
  | _ => []

namespace Buffer

variable {limit : Quantity} {b rest last : Buffer} {batch : Batch} {added batches fresh : List Batch}
  {old : List Operation} {returns : List (List Operation)}

/-- Single operations that have room together are all taken. -/
theorem takeFitting_singles (size : Nat) (old : List Operation) (fresh : List Batch)
    (hRoom : limit.isBelow (size + old.length : Nat) = false) :
    takeFitting limit size (old.map (fun op => [op]) ++ fresh) =
      (old.map (fun op => [op]) ++ (takeFitting limit (size + old.length) fresh).1,
        (takeFitting limit (size + old.length) fresh).2) := by
  induction old generalizing size with
  | nil => rfl
  | cons op old ih =>
      have hFits : limit.isBelow (size + [op].length : Nat) = false := by
        rw [Bool.eq_false_iff] at hRoom ⊢
        refine fun hBelow => hRoom (Quantity.isBelow_of_le hBelow ?_)
        simp only [List.length_cons, List.length_nil]
        omega
      have hLength : size + [op].length + old.length = size + (op :: old).length := by
        simp only [List.length_cons, List.length_nil]
        omega
      have hRest := ih (size + [op].length) (by rw [hLength]; exact hRoom)
      rw [List.map_cons, List.cons_append, takeFitting, if_neg (by rw [hFits]; simp), hRest, hLength]
      rfl

/-- So a batch takes all operations that were sent before, if they have room. -/
theorem Holds.cut_of_room (h : b.Holds old fresh) (hRoom : limit.isBelow old.length = false)
    (hCut : b.cut limit = some (batch, rest)) :
    ∃ groups freshLeft, batch = old ++ groups.flatten ∧ rest.Holds [] freshLeft ∧
      fresh = groups ++ freshLeft := by
  unfold Buffer.cut at hCut
  rw [h] at hCut
  cases old with
  | nil =>
      cases fresh with
      | nil => cases hCut
      | cons group fresh =>
          simp only [List.map_nil, List.nil_append, Option.some.injEq, Prod.mk.injEq] at hCut
          obtain ⟨rfl, rfl⟩ := hCut
          refine ⟨group :: (takeFitting limit group.length fresh).1, _, rfl, rfl, ?_⟩
          rw [List.cons_append, takeFitting_append]
  | cons op old =>
      have hLength : [op].length + old.length = (op :: old).length := by
        simp only [List.length_cons, List.length_nil]
        omega
      have hTaken := takeFitting_singles [op].length old fresh (by rw [hLength]; exact hRoom)
      simp only [List.map_cons, List.cons_append, Option.some.injEq, Prod.mk.injEq] at hCut
      obtain ⟨rfl, rfl⟩ := hCut
      rw [hTaken]
      refine ⟨(takeFitting limit ([op].length + old.length) fresh).1, _, ?_, rfl,
        (takeFitting_append _ _ _).symm⟩
      simp [flatten_singles]

/-- Batches that are cut from a buffer take returns and groups as a whole. -/
theorem Holds.parcels (h : b.Holds returns.flatten fresh)
    (hRoom : limit.isBelow returns.flatten.length = false)
    (hPacks : b.Packs limit added batches last) :
    ∃ parcels : List Parcel, ∃ returnsLeft freshLeft, batches = parcels.map Parcel.batch ∧
      last.Holds returnsLeft.flatten freshLeft ∧
      returns = parcels.flatMap Parcel.returns ++ returnsLeft ∧
      fresh ++ added = parcels.flatMap Parcel.groups ++ freshLeft := by
  induction hPacks generalizing returns fresh with
  | done b => exact ⟨[], returns, fresh, rfl, h, rfl, by simp⟩
  | cut hCut _ ih =>
      obtain ⟨groups, freshRest, rfl, hRest, rfl⟩ := h.cut_of_room hRoom hCut
      have hNone : limit.isBelow ([] : List (List Operation)).flatten.length = false := by
        rw [Bool.eq_false_iff] at hRoom ⊢
        exact fun hBelow => hRoom (Quantity.isBelow_of_le hBelow (Int.natCast_nonneg _))
      obtain ⟨parcels, returnsLeft, freshLeft, rfl, hLast, hReturns, hFresh⟩ := @ih _ [] hRest hNone
      refine ⟨⟨returns, groups⟩ :: parcels, returnsLeft, freshLeft, rfl, hLast, ?_, ?_⟩
      · rw [List.flatMap_cons, List.append_assoc, ← hReturns, List.append_nil]
      · rw [List.flatMap_cons, List.append_assoc, List.append_assoc, hFresh]
  | @push b last group added batches _ _ ih =>
      have hPushed : (b.push group).Holds returns.flatten (fresh ++ [group]) := by
        rw [Holds, push, h, List.append_assoc]
      obtain ⟨parcels, returnsLeft, freshLeft, hBatches, hLast, hReturns, hFresh⟩ := ih hPushed hRoom
      refine ⟨parcels, returnsLeft, freshLeft, hBatches, hLast, hReturns, ?_⟩
      rw [← hFresh, List.append_assoc, List.singleton_append]

end Buffer

namespace Delivery

/-- What goes back because of an event; there is one entry for each request that ends. -/
def returned (d : Delivery) (e : Event) : List (List Operation) :=
  match d.ending? e with
  | none => []
  | some _ => [d.resent e]

/-- The operations in the buffer that were sent before. -/
def putBack (d : Delivery) : List Operation := d.buffered.filter (0 < ·.attempts)

/-- What goes back has room in one batch, together with what went back before and still waits. -/
def IsRoomy (d : Delivery) (e : Event) : Prop :=
  d.resent e ≠ [] → d.limit.isBelow ((d.resent e).length + d.putBack.length : Nat) = false

instance (d : Delivery) (e : Event) : Decidable (d.IsRoomy e) :=
  inferInstanceAs (Decidable (d.resent e ≠ [] → _ = false))

/-- The returns that are sent, queued, in the buffer and with the sender. -/
def kept (sent queued : List Parcel) (returns rested : List (List Operation)) :
    Multiset (List Operation) :=
  sent.flatMap Parcel.returns + queued.flatMap Parcel.returns + returns + rested

/-- What a delivery has sent and what waits in it, laid out as parcels, beside what has gone back from
the requests that have ended. -/
structure Parceled (d : Delivery) (submitted ended : List Batch) (back : List (List Operation))
    (sent queued : List Parcel) (returns : List (List Operation)) (fresh : List Batch) : Prop where
  requests : d.requests = sent.map Parcel.batch
  queue : d.queue.getD [] = queued.map Parcel.batch
  buffer : d.buffer.Holds returns.flatten fresh
  room : d.limit.isBelow (d.sender.rested.flatten.length + returns.flatten.length : Nat) = false
  kept : kept sent queued returns d.sender.rested ≤ back
  earlier : ∀ (j : Nat) (p : Parcel), sent[j]? = some p →
    ∀ again ∈ p.returns, ∃ i < j, back[i]? = some again
  origins : List.Forall₂ Returned ended back
  within : ended <+: d.requests
  underWay : ∀ batch, d.sender = .sending batch → d.requests = ended ++ [batch]
  allEnded : d.IsWhole → (∀ batch, d.sender ≠ .sending batch) → d.requests = ended
  marked : ∀ again ∈ back, ∀ op ∈ again, 0 < op.attempts
  plain : ∀ op ∈ (sent.flatMap Parcel.groups ++ queued.flatMap Parcel.groups ++ fresh).flatten,
    op.attempts = 0
  inOrder : sent.flatMap Parcel.groups <+: submitted
  complete : d.IsWhole →
    sent.flatMap Parcel.groups ++ (queued.flatMap Parcel.groups ++ fresh) = submitted

variable {d d' : Delivery} {submitted ended added : List Batch} {back : List (List Operation)}
  {sent queued : List Parcel} {returns : List (List Operation)} {fresh : List Batch}

theorem kept_append (sent queued parcels : List Parcel) (returns rested : List (List Operation)) :
    kept sent (queued ++ parcels) returns rested =
      kept sent queued (parcels.flatMap Parcel.returns ++ returns) rested := by
  simp only [kept, List.flatMap_append, ← Multiset.coe_add]
  abel

/-- Where a return is makes no difference. -/
theorem kept_cons (sent queued : List Parcel) (again : List Operation)
    (returns rested : List (List Operation)) :
    kept sent queued (again :: returns) rested = kept sent queued returns ([again] ++ rested) := by
  rw [← List.singleton_append]
  simp only [kept, ← Multiset.coe_add]
  abel

/-- Groups and batches of the buffer are arranged as parcels. -/
theorem Parceled.arrange {queue batches : List Batch} {b : Buffer}
    (h : d.Parceled submitted ended back sent queued returns fresh) (hQueue : d.queue = some queue)
    (hPacks : d.buffer.Packs d.limit added batches b) (hPlain : ∀ op ∈ added.flatten, op.attempts = 0)
    (s : Stage) :
    ∃ queued returns fresh,
      { d with stage := s, buffer := b, queue := some (queue ++ batches) : Delivery }.Parceled
        (submitted ++ added) ended back sent queued returns fresh := by
  have hBelow {n : Nat} (hn : n ≤ d.sender.rested.flatten.length + returns.flatten.length) :
      d.limit.isBelow n = false := by
    have hRoom := h.room
    rw [Bool.eq_false_iff] at hRoom ⊢
    exact fun hLess => hRoom (Quantity.isBelow_of_le hLess (by omega))
  obtain ⟨parcels, returnsLeft, freshLeft, rfl, hLast, rfl, hFresh⟩ :=
    h.buffer.parcels (hBelow (by omega)) hPacks
  have hQueued : queue = queued.map Parcel.batch := by
    have := h.queue
    rwa [hQueue] at this
  refine ⟨queued ++ parcels, returnsLeft, freshLeft, h.requests, ?_, hLast, hBelow ?_, ?_, h.earlier,
    h.origins, h.within, h.underWay, h.allEnded, h.marked, ?_,
    h.inOrder.trans (List.prefix_append _ _), ?_⟩
  · rw [Option.getD_some, hQueued, List.map_append]
  · simp only [List.flatten_append, List.length_append]
    omega
  · rw [kept_append]
    exact h.kept
  · have hMore : (sent.flatMap Parcel.groups ++ (queued ++ parcels).flatMap Parcel.groups ++
        freshLeft).flatten =
        (sent.flatMap Parcel.groups ++ queued.flatMap Parcel.groups ++ fresh).flatten ++
          added.flatten := by
      rw [← List.flatten_append, List.append_assoc _ fresh, hFresh]
      simp only [List.flatMap_append, List.append_assoc]
    rw [hMore]
    intro op hOp
    exact (List.mem_append.mp hOp).elim (h.plain op) (hPlain op)
  · intro hWhole
    rw [← h.complete hWhole, List.flatMap_append]
    simp only [List.append_assoc]
    rw [hFresh]

/-- What goes back from one request is placed as a whole. -/
theorem Parceled.placed {again : List Operation}
    (h : d.Parceled submitted ended back sent queued returns fresh) (hSender : d.sender = .idle)
    (hKept : Delivery.kept sent queued (again :: returns) [] ≤ back)
    (hRoom : d.limit.isBelow (again.length + returns.flatten.length : Nat) = false)
    (hPlaced : Placed d again d') :
    ∃ queued returns fresh, d'.Parceled submitted ended back sent queued returns fresh := by
  cases hPlaced with
  | none hNone => exact ⟨queued, returns, fresh, h⟩
  | rest hAborting =>
      refine ⟨queued, returns, fresh, h.requests, h.queue, h.buffer, ?_, ?_, h.earlier, h.origins,
        h.within, nofun, ?_, h.marked, h.plain, h.inOrder, h.complete⟩
      · change d.limit.isBelow ([again].flatten.length + returns.flatten.length : Nat) = false
        rwa [List.flatten_singleton]
      · rwa [kept_cons] at hKept
      · intro hWhole _
        exact h.allEnded hWhole (by simp [hSender])
  | front queue batches b hQueue hPacks hAborting =>
      have hFront : { d with buffer := d.buffer.pushFront again : Delivery }.Parceled submitted ended
          back sent queued (again :: returns) fresh := by
        refine ⟨h.requests, h.queue, h.buffer.pushFront again, ?_, ?_, h.earlier, h.origins, h.within,
          h.underWay, h.allEnded, h.marked, h.plain, h.inOrder, h.complete⟩
        · change d.limit.isBelow (d.sender.rested.flatten.length + (again :: returns).flatten.length :
            Nat) = false
          rw [hSender, List.flatten_cons, List.length_append]
          simpa only [Sender.rested, List.flatten_nil, List.length_nil, Nat.zero_add] using hRoom
        · change Delivery.kept sent queued (again :: returns) d.sender.rested ≤ _
          rwa [hSender]
      obtain ⟨queued', returns', fresh', hArranged⟩ :=
        hFront.arrange hQueue hPacks (by simp) d.stage
      rw [List.append_nil] at hArranged
      exact ⟨queued', returns', fresh', hArranged⟩
  | dropped log hAborting =>
      exact ⟨queued, returns, fresh, h.requests, h.queue, h.buffer, h.room, h.kept, h.earlier, h.origins,
        h.within, h.underWay, h.allEnded, h.marked, h.plain, h.inOrder, h.complete⟩

theorem parceled_create (settings : Settings) (store : Store)
    (hLimit : settings.bulkSize.isAtLeast 1 = true) :
    (create settings store).Parceled [] [] [] [] [] [] [] where
  requests := rfl
  queue := rfl
  buffer := rfl
  room := by
    have hOne := Quantity.isBelow_eq_false_of_isAtLeast hLimit
    rw [Bool.eq_false_iff] at hOne ⊢
    exact fun hBelow => hOne (Quantity.isBelow_of_le hBelow (show ((0 : Nat) : Int) ≤ 1 by decide))
  kept := le_refl _
  earlier := by simp
  origins := .nil
  within := List.prefix_refl []
  underWay _ h := by cases h
  allEnded _ _ := rfl
  marked := by simp
  plain := by simp
  inOrder := List.prefix_refl []
  complete _ := rfl

/-- Nothing that parcels are about has changed, apart from the sender, which has come to rest. -/
theorem Parceled.idle (h : d.Parceled submitted ended back sent queued returns fresh)
    (hSame : d'.settings = d.settings ∧ d'.requests = d.requests ∧ d'.queue = d.queue ∧
      d'.buffer = d.buffer) (hSender : d'.sender = .idle) (hWhole : d'.IsWhole → d.IsWhole)
    (hEnded : d'.IsWhole → d.requests = ended) :
    d'.Parceled submitted ended back sent queued returns fresh := by
  obtain ⟨hSettings, hRequests, hQueue, hBuffer⟩ := hSame
  have hLimit : d'.limit = d.limit := congrArg Settings.bulkSize hSettings
  refine ⟨hRequests.trans h.requests, hQueue ▸ h.queue, hBuffer ▸ h.buffer, ?_, ?_, h.earlier,
    h.origins, hRequests ▸ h.within, by simp [hSender], fun hNow _ => hRequests.trans (hEnded hNow),
    h.marked, h.plain, h.inOrder, fun hNow => h.complete (hWhole hNow)⟩
  · have hRoom := h.room
    simp only [hLimit, hSender, Sender.rested, List.flatten_nil, List.length_nil]
    rw [Bool.eq_false_iff] at hRoom ⊢
    exact fun hBelow => hRoom (Quantity.isBelow_of_le hBelow (by omega))
  · rw [hSender]
    refine le_trans ?_ h.kept
    simp only [Delivery.kept, Sender.rested, Multiset.coe_nil, add_zero]
    exact Multiset.le_add_right _ _

/-- What a parcel or the buffer holds of returns has gone back from a request. -/
theorem Parceled.mem_back (h : d.Parceled submitted ended back sent queued returns fresh)
    {again : List Operation}
    (hAgain : (∃ p ∈ sent ++ queued, again ∈ p.returns) ∨ again ∈ returns) : again ∈ back := by
  refine Multiset.mem_coe.mp (Multiset.mem_of_le h.kept ?_)
  simp only [Delivery.kept, Multiset.mem_add, Multiset.mem_coe]
  rcases hAgain with hParcel | hWaits
  · rw [← List.mem_append, ← List.flatMap_append]
    exact .inl (.inl (List.mem_flatMap.mpr hParcel))
  · exact .inl (.inr hWaits)

/-- Operations of a request have made no attempts, or some if they went back before. -/
theorem Parceled.attempts (h : d.Parceled submitted ended back sent queued returns fresh) {p : Parcel}
    (hp : p ∈ sent) : (∀ op ∈ p.returns.flatten, 0 < op.attempts) ∧
      ∀ op ∈ p.groups.flatten, op.attempts = 0 := by
  refine ⟨fun op hOp => ?_, fun op hOp => ?_⟩
  · obtain ⟨again, hAgain, hIn⟩ := List.mem_flatten.mp hOp
    exact h.marked again (h.mem_back (.inl ⟨p, List.mem_append_left _ hp, hAgain⟩)) op hIn
  · obtain ⟨group, hGroup, hIn⟩ := List.mem_flatten.mp hOp
    refine h.plain op (List.mem_flatten.mpr ⟨group, ?_, hIn⟩)
    exact List.mem_append_left _ (List.mem_append_left _ (List.mem_flatMap.mpr ⟨p, hp, hGroup⟩))

theorem Parceled.attempts_of_request
    (h : d.Parceled submitted ended back sent queued returns fresh) {batch : Batch}
    (hBatch : batch ∈ d.requests) {op : Operation} (hOp : op ∈ batch) : 0 ≤ op.attempts := by
  rw [h.requests] at hBatch
  obtain ⟨p, hp, rfl⟩ := List.mem_map.mp hBatch
  obtain ⟨hMarked, hPlain⟩ := h.attempts hp
  rcases List.mem_append.mp hOp with hOld | hNew
  · exact (hMarked op hOld).le
  · exact (hPlain op hNew).ge

/-- A request ends, and what goes back from it is noted. -/
theorem Parceled.answered {batch : Batch} {again : List Operation}
    (h : d.Parceled submitted ended back sent queued returns fresh)
    (hSender : d.sender = .sending batch) (hReturned : Returned batch again) :
    { d with sender := .idle : Delivery }.Parceled submitted (ended ++ [batch]) (back ++ [again]) sent
      queued returns fresh := by
  have hRequests := h.underWay batch hSender
  have hKept := h.kept
  have hRoom := h.room
  rw [hSender] at hKept hRoom
  refine ⟨h.requests, h.queue, h.buffer, hRoom, hKept.trans ?_, ?_,
    List.rel_append h.origins (.cons hReturned .nil), ?_, nofun, fun _ _ => hRequests, ?_, h.plain,
    h.inOrder, h.complete⟩
  · rw [← Multiset.coe_add]
    exact Multiset.le_add_right _ _
  · intro j p hp other hOther
    obtain ⟨i, hi, hBack⟩ := h.earlier j p hp other hOther
    refine ⟨i, hi, ?_⟩
    rw [List.getElem?_append_left (List.getElem?_eq_some_iff.mp hBack).1]
    exact hBack
  · exact hRequests ▸ List.prefix_refl _
  · intro other hOther op hOp
    rcases List.mem_append.mp hOther with hOld | hNew
    · exact h.marked other hOld op hOp
    · obtain ⟨tried, hTried, rfl⟩ := List.mem_singleton.mp hNew ▸ hReturned
      obtain ⟨first, hFirst, rfl⟩ := List.mem_map.mp hOp
      have hBatch : batch ∈ d.requests := by
        rw [hRequests]
        exact List.mem_append_right _ (List.mem_singleton_self batch)
      exact Int.lt_add_one_of_le (h.attempts_of_request hBatch (hTried.subset hFirst))

/-- The batch in front of the queue is the first of the parcels that wait. -/
theorem Parceled.next {batch : Batch} {rest : List Batch}
    (h : d.Parceled submitted ended back sent queued returns fresh)
    (hQueue : d.queue = some (batch :: rest)) :
    ∃ p later, queued = p :: later ∧ p.batch = batch ∧ later.map Parcel.batch = rest := by
  have hWaiting := h.queue
  rw [hQueue, Option.getD_some] at hWaiting
  exact List.map_eq_cons_iff.mp hWaiting.symm

theorem Parceled.length_back (h : d.Parceled submitted ended back sent queued returns fresh)
    (hWhole : d.IsWhole) (hSender : d.sender = .idle) : back.length = sent.length := by
  have hRequests := h.allEnded hWhole (by simp [hSender])
  rw [← h.origins.length_eq, ← hRequests, h.requests, List.length_map]

/-- When the next parcel is sent, what it holds of returns has gone back from requests before it. -/
theorem Parceled.earlier_next {p : Parcel} {later : List Parcel}
    (h : d.Parceled submitted ended back sent (p :: later) returns fresh) (hWhole : d.IsWhole)
    (hSender : d.sender = .idle) (j : Nat) (other : Parcel) (hOther : (sent ++ [p])[j]? = some other)
    (again : List Operation) (hAgain : again ∈ other.returns) : ∃ i < j, back[i]? = some again := by
  rcases Nat.lt_or_ge j sent.length with hOld | hNew
  · rw [List.getElem?_append_left hOld] at hOther
    exact h.earlier j other hOther again hAgain
  · rw [List.getElem?_append_right hNew, List.getElem?_singleton] at hOther
    split at hOther
    · obtain rfl := Option.some.inj hOther
      have hBack : again ∈ back := h.mem_back (.inl ⟨p, by simp, hAgain⟩)
      obtain ⟨i, hi⟩ := List.mem_iff_getElem?.mp hBack
      have hLess := (List.getElem?_eq_some_iff.mp hi).1
      have hLength := h.length_back hWhole hSender
      exact ⟨i, by omega, hi⟩
    · cases hOther

/-- A parcel that is sent comes last, and what went back before is what it holds of returns. -/
theorem Parceled.send {batch : Batch} {rest : List Batch}
    (h : d.Parceled submitted ended back sent queued returns fresh)
    (hQueue : d.queue = some (batch :: rest)) (hSender : d.sender = .idle) (hWhole : d.IsWhole) :
    ∃ p queued, { d with
      queue := some rest, mark := d.mark - 1, sender := .sending batch,
      requests := d.requests ++ [batch] : Delivery }.Parceled submitted ended back (sent ++ [p]) queued
        returns fresh := by
  obtain ⟨p, queued, rfl, rfl, rfl⟩ := h.next hQueue
  have hComplete := h.complete hWhole
  have hRequests := h.allEnded hWhole (by simp [hSender])
  have hRoom := h.room
  have hKept := h.kept
  have hPlain := h.plain
  rw [hSender] at hRoom hKept
  simp only [List.flatMap_cons, List.append_assoc] at hComplete hPlain
  have hSent : (sent ++ [p]).flatMap Parcel.groups = sent.flatMap Parcel.groups ++ p.groups := by simp
  have hMoved : Delivery.kept (sent ++ [p]) queued returns [] =
      Delivery.kept sent (p :: queued) returns [] := by
    simp only [Delivery.kept, List.flatMap_append, List.flatMap_cons, List.flatMap_nil,
      List.append_nil, ← Multiset.coe_add]
    abel
  refine ⟨p, queued, ?_, rfl, h.buffer, hRoom, hMoved ▸ hKept, h.earlier_next hWhole hSender,
    h.origins, ?_, ?_, ?_, h.marked, ?_, ?_, ?_⟩
  · rw [h.requests, List.map_append]
    rfl
  · exact h.within.trans (List.prefix_append _ _)
  · rintro other ⟨⟩
    exact congrArg (· ++ [p.batch]) hRequests
  · exact fun _ hNone => absurd rfl (hNone p.batch)
  · rw [hSent]
    simpa only [List.append_assoc] using hPlain
  · rw [hSent, ← hComplete, ← List.append_assoc]
    exact List.prefix_append _ _
  · intro _
    rw [hSent, List.append_assoc]
    exact hComplete

/-- Of a run that has come to a bad end, a batch is dropped and not sent. -/
theorem Parceled.discard {batch : Batch} {rest : List Batch}
    (h : d.Parceled submitted ended back sent queued returns fresh)
    (hQueue : d.queue = some (batch :: rest)) (hNotWhole : ¬d.IsWhole) :
    ∃ queued, { d with queue := some rest, mark := d.mark - 1 : Delivery }.Parceled submitted ended back
      sent queued returns fresh := by
  obtain ⟨p, queued, rfl, rfl, rfl⟩ := h.next hQueue
  refine ⟨queued, h.requests, rfl, h.buffer, h.room, le_trans ?_ h.kept, h.earlier, h.origins, h.within,
    h.underWay, h.allEnded, h.marked, fun op hOp => h.plain op ?_, h.inOrder,
    fun hWhole => absurd hWhole hNotWhole⟩
  · simp only [Delivery.kept, List.flatMap_cons, ← Multiset.coe_add]
    refine add_le_add (add_le_add (add_le_add le_rfl ?_) le_rfl) le_rfl
    exact Multiset.le_add_left _ _
  · simp only [List.flatMap_cons, List.flatten_append, List.mem_append] at hOp ⊢
    tauto

/-- When a run is given up, all that waits is dropped. -/
theorem Parceled.abort (h : d.Parceled submitted ended back sent queued returns fresh)
    (log : List LogRecord) :
    { d with
      aborting := true, stage := .stopping, buffer := .empty, queue := d.queue.map fun _ => [],
      log := log : Delivery }.Parceled submitted ended back sent [] [] [] where
  requests := h.requests
  queue := by cases d.queue <;> rfl
  buffer := rfl
  room := by
    have hRoom := h.room
    rw [Bool.eq_false_iff] at hRoom ⊢
    refine fun hBelow => hRoom (Quantity.isBelow_of_le hBelow (Int.ofNat_le.mpr ?_))
    exact Nat.add_le_add_left (Nat.zero_le _) _
  kept := by
    refine le_trans ?_ h.kept
    simp only [Delivery.kept, List.flatMap_nil, Multiset.coe_nil, add_zero]
    refine add_le_add ?_ le_rfl
    rw [add_assoc]
    exact Multiset.le_add_right _ _
  earlier := h.earlier
  origins := h.origins
  within := h.within
  underWay := h.underWay
  allEnded hWhole := by simp [IsWhole] at hWhole
  marked := h.marked
  plain op hOp := h.plain op (by
    simp only [List.flatMap_nil, List.append_nil] at hOp
    simp only [List.flatten_append, List.mem_append]
    exact .inl (.inl hOp))
  inOrder := h.inOrder
  complete hWhole := by simp [IsWhole] at hWhole

/-- Every move that ends no request keeps parcels as they are and adds to them at the end. -/
theorem Move.parceled {acked : List Receipt} {refused : List Operation}
    (hMove : Move d added acked refused d') (hOrderly : d.Orderly)
    (hQuiet : ∀ batch, d.sender = .sending batch → d'.sender = .sending batch)
    (hPlain : ∀ op ∈ added.flatten, op.attempts = 0)
    (h : d.Parceled submitted ended back sent queued returns fresh) :
    ∃ sent queued returns fresh,
      d'.Parceled (submitted ++ added) ended back sent queued returns fresh := by
  cases hMove with
  | stay =>
      rw [List.append_nil]
      exact ⟨sent, queued, returns, fresh, h⟩
  | start hStage hSender hQueue =>
      rw [List.append_nil]
      have hNone : [] = queued.map Parcel.batch := hQueue.symm.trans h.queue
      refine ⟨sent, queued, returns, fresh, ?_⟩
      have hIdle : { d with sender := .idle : Delivery }.Parceled submitted ended back sent queued returns
          fresh := h.idle ⟨rfl, rfl, rfl, rfl⟩ rfl id fun hWhole => h.allEnded hWhole (by simp [hSender])
      exact { hIdle with queue := hNone }
  | arrange added s queue batches b hNext hQueue hPacks hRefused =>
      obtain ⟨queued', returns', fresh', hArranged⟩ := h.arrange hQueue hPacks hPlain s
      exact ⟨sent, queued', returns', fresh', hArranged⟩
  | send batch rest hStage hSender hQueue hWhole =>
      rw [List.append_nil]
      obtain ⟨p, queued', hSent⟩ := h.send hQueue hSender hWhole
      exact ⟨sent ++ [p], queued', returns, fresh, hSent⟩
  | discard batch rest hStage hQueue hNotWhole =>
      rw [List.append_nil]
      obtain ⟨queued', hLeft⟩ := h.discard hQueue hNotWhole
      exact ⟨sent, queued', returns, fresh, hLeft⟩
  | conclude batch acked refused d' hSender hEnds =>
      exact absurd (hQuiet batch hSender) (hEnds.sender_ne batch)
  | wake ops d' hSender hPlaced hAwake =>
      rw [List.append_nil]
      have hKept := h.kept
      have hRoom := h.room
      rw [hSender] at hKept hRoom
      have hIdle : { d with sender := .idle : Delivery }.Parceled submitted ended back sent queued returns
          fresh := h.idle ⟨rfl, rfl, rfl, rfl⟩ rfl id fun hWhole => h.allEnded hWhole (by simp [hSender])
      refine ⟨sent, hIdle.placed rfl ?_ ?_ hPlaced⟩
      · rw [kept_cons]
        exact hKept
      · change d.limit.isBelow (ops.length + returns.flatten.length : Nat) = false
        simpa [Sender.rested] using hRoom
  | abort log hStage =>
      rw [List.append_nil]
      exact ⟨sent, [], [], [], h.abort log⟩
  | join | leave | mark | finish =>
      rw [List.append_nil]
      exact ⟨sent, queued, returns, fresh, { h with }⟩
  | abandon hStage =>
      rw [List.append_nil]
      refine ⟨sent, queued, returns, fresh, h.idle ⟨rfl, rfl, rfl, rfl⟩ rfl id fun hWhole => ?_⟩
      simp [IsWhole, hOrderly.stopping hStage] at hWhole

theorem returned_of_ending {e : Event} {x : Ending} (h : d.ending? e = some x)
    {again : List Operation} (hAgain : (d.resolve x).requeued = .ok again) :
    Returned x.batch again := by
  unfold resolve at hAgain
  cases hResult : x.result with
  | ok o =>
      obtain ⟨raw, _, _, hResponse⟩ := answer_of_ending h hResult
      simp only [hResult] at hAgain
      obtain ⟨rfl, _⟩ := Coordinator.onOutcome_ok hAgain
      obtain ⟨tried, hTried, _, hCopies⟩ := d.coordinator.exists_of_resent o.failed
      exact ⟨tried, hTried.trans (Outcome.failed_sublist hResponse), hCopies⟩
  | error f =>
      simp only [hResult] at hAgain
      split at hAgain
      · obtain ⟨rfl, _⟩ := Coordinator.onFailure_ok hAgain
        exact ⟨x.batch, List.Sublist.refl _, rfl⟩
      · cases hAgain

theorem Parceled.putBack_eq (h : d.Parceled submitted ended back sent queued returns fresh) :
    d.putBack = returns.flatten := by
  have hMarked : returns.flatten.filter (0 < ·.attempts) = returns.flatten := by
    refine List.filter_eq_self.mpr fun op hOp => ?_
    obtain ⟨again, hAgain, hIn⟩ := List.mem_flatten.mp hOp
    exact decide_eq_true (h.marked again (h.mem_back (.inr hAgain)) op hIn)
  have hPlain : fresh.flatten.filter (0 < ·.attempts) = [] := by
    refine List.filter_eq_nil_iff.mpr fun op hOp => ?_
    have hZero := h.plain op (by
      rw [List.flatten_append]
      exact List.mem_append_right _ hOp)
    simp [hZero]
  rw [putBack, buffered, h.buffer, List.flatten_append, Buffer.flatten_singles, List.filter_append,
    hMarked, hPlain, List.append_nil]

/-- The end of a request sends what goes back on its way as a whole. -/
theorem Parceled.conclude {e : Event} {x : Ending} (hOrderly : d.Orderly) (hRoomy : d.IsRoomy e)
    (hEnding : d.ending? e = some x)
    (h : d.Parceled submitted ended back sent queued returns fresh) :
    ∃ queued returns fresh, (d.step e).Parceled submitted (ended ++ [x.batch]) (back ++ [d.resent e]) sent
      queued returns fresh := by
  obtain ⟨hSender, _⟩ := step_of_ending hEnding
  cases hRequeued : (d.resolve x).requeued with
  | error f =>
      have hNone : d.resent e = [] := by simp only [resent, hEnding, hRequeued]
      obtain ⟨n, log, hStep⟩ := givenUp_of_ending hEnding hRequeued
      have hEnded := h.answered hSender ⟨[], List.nil_sublist _, hNone⟩
      refine ⟨queued, returns, fresh, hStep ▸ hEnded.idle ⟨rfl, rfl, rfl, rfl⟩ rfl ?_ ?_⟩ <;>
      · intro hWhole
        cases hWhole.1
  | ok again =>
      have hAgain : d.resent e = again := by simp only [resent, hEnding, hRequeued]
      obtain ⟨n, log, hPlaced⟩ := placed_of_ending hOrderly hEnding hRequeued
      have hEnded := h.answered hSender (returned_of_ending hEnding hRequeued)
      let idle : Delivery := { d with
        sender := .idle, coordinator := (d.resolve x).coordinator, answered := n, log := log }
      have hIdle : idle.Parceled submitted (ended ++ [x.batch]) _ sent queued returns fresh :=
        hEnded.idle ⟨rfl, rfl, rfl, rfl⟩ rfl id fun _ => h.underWay x.batch hSender
      have hKept := h.kept
      have hRoom := h.room
      rw [hSender] at hKept hRoom
      rw [hAgain]
      refine hIdle.placed rfl ?_ ?_ hPlaced
      · rw [kept_cons, List.append_nil, ← Multiset.coe_add]
        refine le_trans (le_of_eq ?_) (add_le_add_left hKept _)
        simp only [Delivery.kept, Sender.rested, Multiset.coe_nil, add_zero]
      · change d.limit.isBelow (again.length + returns.flatten.length : Nat) = false
        by_cases hNone : again = []
        · rw [hNone]
          exact hRoom
        · have hSpace := hRoomy (hAgain ▸ hNone)
          rwa [hAgain, h.putBack_eq] at hSpace

theorem Parceled.step {e : Event} (hOrderly : d.Orderly) (hRoomy : d.IsRoomy e)
    (hPlain : ∀ op ∈ d.accepted e, op.attempts = 0)
    (h : d.Parceled submitted ended back sent queued returns fresh) :
    ∃ ended sent queued returns fresh,
      (d.step e).Parceled (submitted ++ d.groups e) ended (back ++ d.returned e) sent queued returns
        fresh := by
  cases hEnding : d.ending? e with
  | some x =>
      have hNone : d.groups e = [] := groups_eq_nil (accepted_of_ending hEnding)
      have hBack : d.returned e = [d.resent e] := by simp only [returned, hEnding]
      rw [hNone, List.append_nil, hBack]
      exact ⟨_, sent, h.conclude hOrderly hRoomy hEnding⟩
  | none =>
      have hBack : d.returned e = [] := by simp only [returned, hEnding]
      rw [hBack, List.append_nil]
      refine ⟨ended, ?_⟩
      by_cases hAbandon : e = .abandon
      · subst hAbandon
        refine ⟨sent, queued, returns, fresh, ?_⟩
        change d.abandon.Parceled (submitted ++ []) ended back sent queued returns fresh
        rw [List.append_nil]
        unfold abandon
        split
        · next hStage =>
            refine h.idle ⟨rfl, rfl, rfl, rfl⟩ rfl id fun hWhole => ?_
            simp [IsWhole, hOrderly.stopping hStage] at hWhole
        · exact h
      · refine (step_move hOrderly e).parceled hOrderly (fun batch hSender => ?_) ?_ h
        · exact sender_of_unended hOrderly hSender hEnding hAbandon
        · rw [flatten_groups]
          exact hPlain

/-- At every point of a run in which what goes back has room, what was sent and what waits is laid out
as parcels. -/
theorem run_parceled (hOrderly : d.Orderly) (events : List Event)
    (hRoomy : d.Throughout IsRoomy events)
    (hPlain : ∀ op ∈ d.collect accepted events, op.attempts = 0)
    (h : d.Parceled submitted ended back sent queued returns fresh) :
    ∃ ended sent queued returns fresh,
      (d.run events).Parceled (submitted ++ d.collect groups events) ended
        (back ++ d.collect returned events) sent queued returns fresh := by
  induction events generalizing d submitted ended back sent queued returns fresh with
  | nil => exact ⟨ended, sent, queued, returns, fresh, by simpa [collect, run] using h⟩
  | cons e events ih =>
      obtain ⟨hNow, hLater⟩ := hRoomy
      obtain ⟨_, _, _, _, _, hNext⟩ := h.step hOrderly hNow
        fun op hOp => hPlain op (List.mem_append_left _ hOp)
      rw [collect, collect, ← List.append_assoc, ← List.append_assoc]
      exact ih (hOrderly.move (step_move hOrderly e)) hLater
        (fun op hOp => hPlain op (List.mem_append_right _ hOp)) hNext

end Delivery
end Indexer
