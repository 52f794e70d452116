import Indexer.Proofs.Delivery.Parcels

/-! Whether operations that go back from one request stay together. They do as long
as they have room in one batch; without room a retry can spread a group over two
requests. -/
namespace Indexer

theorem Operation.again_injective : Function.Injective Operation.again := by
  rintro ⟨action, id, update, attempts⟩ ⟨action', id', update', attempts'⟩ h
  simpa [Operation.again] using h

/-- The operation on its attempt before. -/
def Operation.before (op : Operation) : Operation := { op with attempts := op.attempts - 1 }

theorem Operation.again_before (op : Operation) : op.before.again = op := by
  simp [Operation.again, Operation.before]

/-- As far as operations of a group are sent again, those that were in one request are so in one later
request, in their order. -/
def Together (requests : List Batch) (group : List Operation) : Prop :=
  ∀ (i j k : Nat) (sent first second : Batch), requests[i]? = some sent →
    requests[j]? = some first → requests[k]? = some second →
    ∀ x y : Operation, x.content ∈ contents group → y.content ∈ contents group →
      [x, y].Sublist sent → x.again ∈ first → y.again ∈ second →
      i < j ∧ j = k ∧ [x.again, y.again].Sublist first

/-- Where nothing occurs twice, an element has one place. -/
theorem eq_of_nodup_flatten {α : Type} {lists : List (List α)} (h : lists.flatten.Nodup) {i j : Nat}
    {a b : List α} (ha : lists[i]? = some a) (hb : lists[j]? = some b) {x : α} (hxa : x ∈ a)
    (hxb : x ∈ b) : i = j := by
  obtain ⟨hi, rfl⟩ := List.getElem?_eq_some_iff.mp ha
  obtain ⟨hj, rfl⟩ := List.getElem?_eq_some_iff.mp hb
  have hPairs := List.pairwise_iff_getElem.mp (List.nodup_flatten.mp h).2
  rcases Nat.lt_trichotomy i j with hLess | hSame | hMore
  · exact (hPairs i j hi hj hLess hxa hxb).elim
  · exact hSame
  · exact (hPairs j i hj hi hMore hxb hxa).elim

/-- Part of a list without repetitions is what a filter leaves of it. -/
theorem filter_mem_of_sublist {tried all : List Operation} (h : tried.Sublist all) (hNodup : all.Nodup) :
    all.filter (· ∈ tried) = tried := by
  have hPart : tried.Sublist (all.filter (· ∈ tried)) := by
    have hFiltered := h.filter (· ∈ tried)
    rwa [List.filter_eq_self.mpr (fun x hx => decide_eq_true hx)] at hFiltered
  have hBack : (all.filter (· ∈ tried)).Subperm tried := by
    refine (hNodup.filter _).subperm fun x hx => ?_
    exact of_decide_eq_true (List.mem_filter.mp hx).2
  exact (hPart.eq_of_length_le hBack.length_le).symm

namespace Delivery

variable {d : Delivery} {submitted ended : List Batch} {back : List (List Operation)}
  {sent queued : List Parcel} {returns : List (List Operation)} {fresh : List Batch}

theorem count_batches (op : Operation) (sent : List Parcel) :
    (sent.map Parcel.batch).flatten.count op =
      (sent.flatMap Parcel.returns).flatten.count op + (sent.flatMap Parcel.groups).flatten.count op := by
  induction sent with
  | nil => rfl
  | cons p sent ih =>
      rw [List.map_cons, List.flatten_cons, List.count_append, ih, List.flatMap_cons, List.flatMap_cons,
        List.flatten_append, List.flatten_append, List.count_append, List.count_append, Parcel.batch,
        List.count_append]
      omega

/-- All that went back is part of what the requests held, for the next attempt. -/
theorem flatten_returned {ended : List Batch} {back : List (List Operation)}
    (h : List.Forall₂ Returned ended back) :
    back.flatten.Sublist (ended.flatten.map Operation.again) := by
  induction h with
  | nil => exact List.Sublist.refl _
  | cons hReturned _ ih =>
      obtain ⟨tried, hTried, rfl⟩ := hReturned
      rw [List.flatten_cons, List.flatten_cons, List.map_append]
      exact (hTried.map _).append ih

theorem Parceled.returns_le (h : d.Parceled submitted ended back sent queued returns fresh) :
    (sent.flatMap Parcel.returns : Multiset (List Operation)) ≤ back := by
  refine le_trans ?_ h.kept
  rw [Delivery.kept, add_assoc, add_assoc]
  exact Multiset.le_add_right _ _

theorem Parceled.count_returns (h : d.Parceled submitted ended back sent queued returns fresh)
    (op : Operation) :
    (sent.flatMap Parcel.returns).flatten.count op ≤ (d.requests.flatten.map Operation.again).count op := by
  obtain ⟨rest, hRest⟩ := Multiset.le_iff_exists_add.mp h.returns_le
  have hBack : (sent.flatMap Parcel.returns).flatten.count op ≤ back.flatten.count op := by
    induction rest using Quotient.inductionOn with
    | h rest =>
        rw [Multiset.quot_mk_to_coe, Multiset.coe_add, Multiset.coe_eq_coe] at hRest
        rw [hRest.flatten.count_eq, List.flatten_append, List.count_append]
        exact Nat.le_add_right _ _
  have hEnded := (flatten_returned h.origins).count_le op
  have hWithin : (ended.flatten.map Operation.again).Sublist (d.requests.flatten.map Operation.again) := by
    obtain ⟨later, hLater⟩ := h.within
    rw [← hLater, List.flatten_append]
    exact (List.sublist_append_left _ _).map _
  exact hBack.trans (hEnded.trans (hWithin.count_le op))

/-- Operations that came in once are sent once on each attempt. -/
theorem Parceled.count_requests (h : d.Parceled submitted ended back sent queued returns fresh)
    (hDistinct : submitted.flatten.Nodup) (n : Nat) (op : Operation) (hn : op.attempts.toNat = n) :
    d.requests.flatten.count op ≤ 1 := by
  have hReturns : ∀ other ∈ (sent.flatMap Parcel.returns).flatten, 0 < other.attempts := by
    intro other hOther
    obtain ⟨again, hAgain, hIn⟩ := List.mem_flatten.mp hOther
    obtain ⟨p, hp, hReturn⟩ := List.mem_flatMap.mp hAgain
    exact (h.attempts hp).1 other (List.mem_flatten.mpr ⟨again, hReturn, hIn⟩)
  have hGroups : ∀ other ∈ (sent.flatMap Parcel.groups).flatten, other.attempts = 0 := by
    intro other hOther
    refine h.plain other ?_
    rw [List.flatten_append, List.flatten_append]
    exact List.mem_append_left _ (List.mem_append_left _ hOther)
  induction n generalizing op with
  | zero =>
      -- on its first attempt it is in a group
      have hNone : (sent.flatMap Parcel.returns).flatten.count op = 0 := by
        refine List.count_eq_zero.mpr fun hIn => ?_
        have := hReturns op hIn
        omega
      obtain ⟨later, hLater⟩ := h.inOrder
      have hPart : (sent.flatMap Parcel.groups).flatten.count op ≤ submitted.flatten.count op := by
        rw [← hLater, List.flatten_append, List.count_append]
        exact Nat.le_add_right _ _
      have hOnce := List.nodup_iff_count_le_one.mp hDistinct op
      rw [h.requests, count_batches, hNone]
      omega
  | succ n ih =>
      -- later on it went back from the request of its attempt before
      have hNone : (sent.flatMap Parcel.groups).flatten.count op = 0 := by
        refine List.count_eq_zero.mpr fun hIn => ?_
        have := hGroups op hIn
        omega
      have hBefore := ih op.before (by simp only [Operation.before]; omega)
      have hReturned := h.count_returns op
      have hSame := List.count_map_of_injective d.requests.flatten Operation.again
        Operation.again_injective op.before
      rw [Operation.again_before] at hSame
      have hCount : d.requests.flatten.count op = (sent.flatMap Parcel.returns).flatten.count op := by
        conv_lhs => rw [h.requests, count_batches, hNone]
        omega
      omega

theorem Parceled.nodup (h : d.Parceled submitted ended back sent queued returns fresh)
    (hDistinct : submitted.flatten.Nodup) : d.requests.flatten.Nodup :=
  List.nodup_iff_count_le_one.mpr fun op => h.count_requests hDistinct _ op rfl

/-- An operation that is sent again is in its request with all that went back with it. -/
theorem Parceled.return_of_again (h : d.Parceled submitted ended back sent queued returns fresh)
    (hDistinct : submitted.flatten.Nodup) {i j : Nat} {source target : Batch}
    (hSource : d.requests[i]? = some source) (hTarget : d.requests[j]? = some target) {op : Operation}
    (hOp : op ∈ source) (hAgain : op.again ∈ target) :
    i < j ∧ ∃ tried : List Operation, tried.Sublist source ∧
      back[i]? = some (tried.map Operation.again) ∧ op ∈ tried ∧
      (tried.map Operation.again).Sublist target := by
  have hAttempts := h.attempts_of_request (List.mem_of_getElem? hSource) hOp
  rw [h.requests, List.getElem?_map, Option.map_eq_some_iff] at hTarget
  obtain ⟨p, hp, rfl⟩ := hTarget
  have hReturned : op.again ∈ p.returns.flatten := by
    rcases List.mem_append.mp hAgain with hOld | hNew
    · exact hOld
    · have hZero := (h.attempts (List.mem_of_getElem? hp)).2 _ hNew
      simp only [Operation.again] at hZero
      omega
  obtain ⟨again, hIn, hMem⟩ := List.mem_flatten.mp hReturned
  obtain ⟨i', hLess, hBack⟩ := h.earlier j p hp again hIn
  obtain ⟨hBound, rfl⟩ := List.getElem?_eq_some_iff.mp hBack
  have hEnded : i' < ended.length := by
    rw [h.origins.length_eq]
    exact hBound
  obtain ⟨tried, hTried, hCopies⟩ := h.origins.get hEnded hBound
  change tried.Sublist ended[i'] at hTried
  change back[i'] = _ at hCopies
  have hFrom : d.requests[i']? = some ended[i'] := by
    obtain ⟨later, hLater⟩ := h.within
    rw [← hLater, List.getElem?_append_left hEnded, List.getElem?_eq_getElem hEnded]
  have hSelf : op ∈ tried := by
    rw [hCopies] at hMem
    obtain ⟨first, hFirst, hSame⟩ := List.mem_map.mp hMem
    exact Operation.again_injective hSame ▸ hFirst
  obtain rfl : i' = i :=
    eq_of_nodup_flatten (h.nodup hDistinct) hFrom hSource (hTried.subset hSelf) hOp
  obtain rfl : ended[i'] = source := Option.some.inj (hFrom.symm.trans hSource)
  refine ⟨hLess, tried, hTried, hCopies ▸ hBack, hSelf, ?_⟩
  rw [← hCopies]
  exact (List.sublist_flatten_of_mem hIn).trans (List.sublist_append_left _ _)

theorem Parceled.together (h : d.Parceled submitted ended back sent queued returns fresh)
    (hDistinct : submitted.flatten.Nodup) (group : List Operation) : Together d.requests group := by
  intro i j k source first second hSource hFirst hSecond x y _ _ hOrder hx hy
  have hxIn : x ∈ source := hOrder.subset (by simp)
  have hyIn : y ∈ source := hOrder.subset (by simp)
  obtain ⟨hLess, tried, hTried, hBack, hxTried, hTarget⟩ :=
    h.return_of_again hDistinct hSource hFirst hxIn hx
  obtain ⟨_, other, hOther, hSame, hyOther, _⟩ := h.return_of_again hDistinct hSource hSecond hyIn hy
  obtain rfl : tried = other :=
    Operation.again_injective.list_map (Option.some.inj (hBack.symm.trans hSame))
  have hNodup : source.Nodup :=
    (List.nodup_flatten.mp (h.nodup hDistinct)).1 source (List.mem_of_getElem? hSource)
  have hyTarget : y.again ∈ first := hTarget.subset (List.mem_map_of_mem hyOther)
  refine ⟨hLess, eq_of_nodup_flatten (h.nodup hDistinct) hFirst hSecond hyTarget hy, ?_⟩
  have hPair := hOrder.filter (· ∈ tried)
  rw [filter_mem_of_sublist hTried hNodup, List.filter_eq_self.mpr (by simp [hxTried, hyOther])] at hPair
  exact (hPair.map Operation.again).trans hTarget

/-- What goes back from a request stays together, as long as it has room in one batch with what went
back before and still waits. The requests are made of whole returns, each sent at most once, and of
whole groups. So, if no operation was added twice, the operations of a group that go back from one
request are in one later request, in their order. -/
theorem returns_stay_together (settings : Settings) (store : Store) (events : List Event)
    (hLimit : settings.bulkSize.isAtLeast 1 = true)
    (hPlain : ∀ op ∈ (create settings store).collect accepted events, op.attempts = 0)
    (hRoomy : (create settings store).Throughout IsRoomy events) :
    let start := create settings store
    let d := start.run events
    (∃ (parcels : List Parcel) (ended : List Batch), d.requests = parcels.map Parcel.batch ∧
      ended <+: d.requests ∧ List.Forall₂ Returned ended (start.collect returned events) ∧
      (parcels.flatMap Parcel.returns : Multiset (List Operation)) ≤ start.collect returned events ∧
      parcels.flatMap Parcel.groups <+: start.collect groups events) ∧
    ((start.collect accepted events).Nodup →
      ∀ group ∈ start.collect groups events, Together d.requests group) := by
  intro start d
  obtain ⟨ended, sent, queued, returns, fresh, hParceled⟩ := run_parceled (orderly_create settings store)
    events hRoomy hPlain (parceled_create settings store hLimit)
  rw [List.nil_append, List.nil_append] at hParceled
  refine ⟨⟨sent, ended, hParceled.requests, hParceled.within, hParceled.origins, hParceled.returns_le,
    hParceled.inOrder⟩, fun hDistinct group _ => hParceled.together ?_ group⟩
  rw [flatten_collect_groups]
  exact hDistinct

/-- A deletion of which nothing is on record. -/
def deletion (id : String) (attempts : Int) : Operation := ⟨.delete, id, none, attempts⟩

/-- Two groups of two, with batches of three and no rest before retries. The first group does not reach
the destination. -/
def pairs : List Event :=
  [.start, .add [deletion "g1" 0, deletion "g2" 0], .add [deletion "h1" 0, deletion "h2" 0], .close,
    .take, refuses, .take]

/-- The first group is sent again after the second. -/
theorem pair_stays_together :
    let settings := { Settings.initial ⟨0, []⟩ with bulkSize := .whole 3, retryBackoff := .whole 0 }
    let events := pairs ++ [reply [[], []], .proceed, .proceed, .take]
    let start := create settings .empty
    (start.run events).requests =
      [[deletion "g1" 0, deletion "g2" 0], [deletion "h1" 0, deletion "h2" 0],
        [deletion "g1" 1, deletion "g2" 1]] ∧
    ∀ group ∈ start.collect groups events, Together (start.run events).requests group := by
  intro settings events start
  have hPlain : ∀ op ∈ start.collect accepted events, op.attempts = 0 := by decide +kernel
  have hRoomy : start.Throughout IsRoomy events := by decide +kernel
  obtain ⟨_, hTogether⟩ := returns_stay_together settings .empty events (by decide +kernel) hPlain hRoomy
  exact ⟨by decide +kernel, hTogether (by decide +kernel)⟩

/-- If neither group reaches the destination, they have no room in one batch. The second is sent again
first, with one operation of the first. -/
theorem pair_is_parted :
    let settings := { Settings.initial ⟨0, []⟩ with bulkSize := .whole 3, retryBackoff := .whole 0 }
    let events := pairs ++ [refuses, .take, reply [[], [], []], .proceed, .proceed, .take, reply [[]]]
    let start := create settings .empty
    (start.collect accepted events).Nodup ∧
    ¬∀ group ∈ start.collect groups events, Together (start.run events).requests group := by
  intro settings events start
  refine ⟨by decide +kernel, fun hTogether => ?_⟩
  have hGroup : [deletion "g1" 0, deletion "g2" 0] ∈ start.collect groups events := by decide +kernel
  have hRequests : (start.run events).requests =
      [[deletion "g1" 0, deletion "g2" 0], [deletion "h1" 0, deletion "h2" 0],
        [deletion "h1" 1, deletion "h2" 1, deletion "g1" 1], [deletion "g2" 1]] := by decide +kernel
  have hPair := hTogether _ hGroup
  rw [hRequests] at hPair
  obtain ⟨_, hSame, _⟩ := hPair 0 2 3 _ _ _ rfl rfl rfl (deletion "g1" 0) (deletion "g2" 0)
    (by decide +kernel) (by decide +kernel) (List.Sublist.refl _) (by decide +kernel)
    (by decide +kernel)
  cases hSame

end Delivery
end Indexer
