import Indexer.Bulk.ItemError

/-! Names of exceptions at the front of messages. The name that a message is taken to start with is the
longest one that no word goes on after. A search that first takes as many characters as it can, and
gives them back one by one until an ending fits, comes to the same name. -/
namespace Indexer.ErrorName

variable {text name other stem more cs : List Char} {c : Char}

/-- What names of exceptions end in. -/
def closings : List (List Char) := ["Exception".toList, "Error".toList]

/-- No word goes on here. -/
def EndsWord (cs : List Char) : Prop := ∀ c ∈ cs.head?, Text.isWord c = false

/-- There is an ending, and something before it. -/
def Completes (name : List Char) : Prop := ∃ before ≠ [], ∃ closing ∈ closings, name = before ++ closing

/-- The text starts with the name of an exception. -/
structure IsName (text name : List Char) : Prop where
  start : ∃ first rest, name = first :: rest ∧ isStart first = true ∧ ∀ c ∈ rest, isInner c = true
  completes : Completes name
  front : ∃ rest, text = name ++ rest ∧ EndsWord rest

def IsLongestName (text name : List Char) : Prop :=
  IsName text name ∧ ∀ other, IsName text other → other.length ≤ name.length

/-- What was found is the longest name, if there is a name at all. -/
def IsLongestFound (text : List Char) : Option (List Char) → Prop
  | some name => IsLongestName text name
  | none => ∀ name, ¬IsName text name

theorem IsName.eq_of_length (h : IsName text name) (hOther : IsName text other)
    (hLength : name.length = other.length) : name = other := by
  obtain ⟨rest, rfl, _⟩ := h.front
  obtain ⟨otherRest, hText, _⟩ := hOther.front
  exact List.append_inj_left hText hLength

theorem IsLongestName.unique (h : IsLongestName text name) (hOther : IsLongestName text other) :
    name = other :=
  h.1.eq_of_length hOther.1 (Nat.le_antisymm (hOther.2 name h.1) (h.2 other hOther.1))

theorem IsLongestFound.eq_some_iff {found : Option (List Char)} (h : IsLongestFound text found) :
    found = some name ↔ IsLongestName text name := by
  cases found with
  | none => exact ⟨nofun, fun hName => absurd hName.1 (h name)⟩
  | some longest =>
      rw [Option.some.injEq]
      exact ⟨fun hSame => hSame ▸ h, fun hName => IsLongestName.unique h hName⟩

theorem IsLongestFound.eq_none_iff {found : Option (List Char)} (h : IsLongestFound text found) :
    found = none ↔ ∀ name, ¬IsName text name := by
  cases found with
  | none => exact ⟨fun _ => h, fun _ => rfl⟩
  | some longest => exact ⟨nofun, fun hNone => absurd h.1 (hNone longest)⟩

theorem IsLongestFound.unique {found found' : Option (List Char)} (h : IsLongestFound text found)
    (h' : IsLongestFound text found') : found = found' := by
  cases found' with
  | none => exact h.eq_none_iff.mpr h'
  | some name => exact h.eq_some_iff.mpr h'

theorem isComplete_iff : isComplete stem.reverse = true ↔ Completes stem := by
  have hEndings : endings = closings.map List.reverse := rfl
  simp only [isComplete, hEndings, List.any_map, List.any_eq_true, Function.comp_apply,
    Bool.and_eq_true, List.isPrefixOf_iff_prefix, List.reverse_prefix, bne_iff_ne, ne_eq,
    List.reverse_inj]
  constructor
  · rintro ⟨closing, hClosing, ⟨before, hStem⟩, hMore⟩
    refine ⟨before, fun hNone => hMore ?_, closing, hClosing, hStem.symm⟩
    rw [← hStem, hNone, List.nil_append]
  · rintro ⟨before, hSome, closing, hClosing, rfl⟩
    exact ⟨closing, hClosing, List.suffix_append before closing, fun hSame =>
      hSome (List.append_left_eq_self.mp hSame.symm)⟩

/-- The characters of a name that are still to come, when some were taken already. -/
structure GoesOn (stem cs more : List Char) : Prop where
  inner : ∀ c ∈ more, isInner c = true
  completes : Completes (stem ++ more)
  front : ∃ rest, cs = more ++ rest ∧ EndsWord rest

theorem isName_cons_iff : IsName (c :: cs) name ↔
    isStart c = true ∧ ∃ more, name = c :: more ∧ GoesOn [c] cs more := by
  constructor
  · rintro ⟨⟨first, more, rfl, hStart, hInner⟩, hCompletes, rest, hText, hEnds⟩
    obtain ⟨rfl, rfl⟩ := List.cons.inj hText
    exact ⟨hStart, more, rfl, hInner, hCompletes, rest, rfl, hEnds⟩
  · rintro ⟨hStart, more, rfl, hInner, hCompletes, rest, rfl, hEnds⟩
    exact ⟨⟨c, more, rfl, hStart, hInner⟩, hCompletes, rest, rfl, hEnds⟩

theorem goesOn_nil_iff : GoesOn stem cs [] ↔ Completes stem ∧ EndsWord cs := by
  constructor
  · rintro ⟨_, hCompletes, rest, rfl, hEnds⟩
    rw [List.append_nil] at hCompletes
    exact ⟨hCompletes, hEnds⟩
  · rintro ⟨hCompletes, hEnds⟩
    exact ⟨nofun, by rwa [List.append_nil], cs, rfl, hEnds⟩

theorem goesOn_cons_iff : GoesOn stem (c :: cs) (c :: more) ↔
    isInner c = true ∧ GoesOn (stem ++ [c]) cs more := by
  constructor
  · rintro ⟨hInner, hCompletes, rest, hText, hEnds⟩
    obtain ⟨hFirst, hMore⟩ := List.forall_mem_cons.mp hInner
    exact ⟨hFirst, hMore, by rwa [List.append_assoc], rest, (List.cons.inj hText).2, hEnds⟩
  · rintro ⟨hFirst, hMore, hCompletes, rest, rfl, hEnds⟩
    exact ⟨List.forall_mem_cons.mpr ⟨hFirst, hMore⟩, by rwa [List.append_assoc] at hCompletes,
      rest, rfl, hEnds⟩

/-- A name stops here, or goes on with the next character. -/
theorem GoesOn.cases (h : GoesOn stem (c :: cs) more) :
    more = [] ∨ isInner c = true ∧ ∃ later, more = c :: later ∧ GoesOn (stem ++ [c]) cs later := by
  cases more with
  | nil => exact .inl rfl
  | cons first later =>
      obtain ⟨rest, hText, _⟩ := h.front
      obtain ⟨rfl, _⟩ := List.cons.inj hText
      obtain ⟨hInner, hLater⟩ := goesOn_cons_iff.mp h
      exact .inr ⟨hInner, later, rfl, hLater⟩

theorem endsWord_cons_iff : EndsWord (c :: cs) ↔ Text.isWord c = false := by
  simp [EndsWord]

/-- What a scan may come to: the longest way in which the name goes on, or what was known before. -/
inductive ScanEnds (stem cs : List Char) (best : Option (List Char)) : Option (List Char) → Prop where
  | found {more : List Char} (hMore : GoesOn stem cs more)
      (hLongest : ∀ other, GoesOn stem cs other → other.length ≤ more.length) :
      ScanEnds stem cs best (some (stem ++ more).reverse)
  | kept (hNone : ∀ more, ¬GoesOn stem cs more) : ScanEnds stem cs best best

/-- Where a name cannot go on, it is known at once whether there is one. -/
theorem scanEnds_here {best : Option (List Char)} {stops : Bool}
    (hStops : stops = true ↔ GoesOn stem cs []) (hHere : ∀ more, GoesOn stem cs more → more = []) :
    ScanEnds stem cs best (if stops then some stem.reverse else best) := by
  split
  · next hStop =>
      have hFound : ScanEnds stem cs best (some (stem ++ []).reverse) :=
        .found (hStops.mp hStop) fun other hOther =>
          Nat.le_of_eq (congrArg List.length (hHere other hOther))
      rwa [List.append_nil] at hFound
  · next hOpen => exact .kept fun more hMore => hOpen (hStops.mpr (hHere more hMore ▸ hMore))

theorem scanEnds_scan (stem : List Char) (best : Option (List Char)) (cs : List Char) :
    ScanEnds stem cs best (scan stem.reverse best cs) := by
  induction cs generalizing stem best with
  | nil =>
      have hStops : isComplete stem.reverse = true ↔ GoesOn stem [] [] := by
        rw [goesOn_nil_iff, isComplete_iff]
        exact ⟨fun hComplete => ⟨hComplete, nofun⟩, And.left⟩
      refine scanEnds_here hStops fun more hMore => ?_
      obtain ⟨rest, hText, _⟩ := hMore.front
      exact (List.append_eq_nil_iff.mp hText.symm).1
  | cons c cs ih =>
      have hStops : (isComplete stem.reverse && !Text.isWord c) = true ↔
          GoesOn stem (c :: cs) [] := by
        rw [goesOn_nil_iff, endsWord_cons_iff, Bool.and_eq_true, isComplete_iff, Bool.not_eq_true']
      rw [scan]
      split
      · next hInner =>
          have hReverse : c :: stem.reverse = (stem ++ [c]).reverse := by simp
          generalize hKnown : (if isComplete stem.reverse && !Text.isWord c then some stem.reverse
            else best) = known
          have hLater := ih (stem ++ [c]) known
          rw [← hReverse] at hLater
          generalize scan (c :: stem.reverse) known cs = ending at hLater ⊢
          cases hLater with
          | @found more hMore hLongest =>
              have hGoesOn : GoesOn stem (c :: cs) (c :: more) := goesOn_cons_iff.mpr ⟨hInner, hMore⟩
              rw [List.append_assoc]
              refine .found hGoesOn fun other hOther => ?_
              rcases hOther.cases with rfl | ⟨_, later, rfl, hLater⟩
              · exact Nat.zero_le _
              · exact Nat.succ_le_succ (hLongest later hLater)
          | kept hNone =>
              rw [← hKnown]
              refine scanEnds_here hStops fun more hMore => hMore.cases.resolve_right ?_
              rintro ⟨_, later, _, hLater⟩
              exact hNone later hLater
      · next hOuter =>
          refine scanEnds_here hStops fun more hMore => hMore.cases.resolve_right ?_
          exact fun hMore => hOuter hMore.1

theorem not_isName_nil (name : List Char) : ¬IsName [] name := by
  intro hName
  obtain ⟨_, _, rfl, _⟩ := hName.start
  obtain ⟨_, hText, _⟩ := hName.front
  cases hText

theorem not_isName_of_start (hStart : isStart c = false) (name : List Char) :
    ¬IsName (c :: cs) name := by
  intro hName
  rw [(isName_cons_iff.mp hName).1] at hStart
  cases hStart

theorem not_isName_cons (hNone : ∀ more, ¬GoesOn [c] cs more) (name : List Char) :
    ¬IsName (c :: cs) name := by
  intro hName
  obtain ⟨_, more, _, hMore⟩ := isName_cons_iff.mp hName
  exact hNone more hMore

theorem isLongestName_cons (hStart : isStart c = true) (hMore : GoesOn [c] cs more)
    (hLongest : ∀ other, GoesOn [c] cs other → other.length ≤ more.length) :
    IsLongestName (c :: cs) (c :: more) := by
  refine ⟨isName_cons_iff.mpr ⟨hStart, more, rfl, hMore⟩, fun other hOther => ?_⟩
  obtain ⟨_, later, rfl, hLater⟩ := isName_cons_iff.mp hOther
  exact Nat.succ_le_succ (hLongest later hLater)

theorem isLongestFound_ofText? (message : String) :
    IsLongestFound message.toList ((ofText? message).map String.toList) := by
  unfold ofText?
  cases message.toList with
  | nil => exact not_isName_nil
  | cons c cs =>
      dsimp only
      cases hStart : isStart c with
      | false => exact not_isName_of_start hStart
      | true =>
          have hScan : ScanEnds [c] cs none (scan [c] none cs) := scanEnds_scan [c] none cs
          rw [if_pos rfl]
          generalize scan [c] none cs = ending at hScan ⊢
          cases hScan with
          | found hMore hLongest =>
              simp only [Option.map_some, List.reverse_reverse, String.toList_ofList]
              exact isLongestName_cons hStart hMore hLongest
          | kept hNone => exact not_isName_cons hNone

/-- The ending that stands here, if no word goes on after it. -/
def closing? (cs : List Char) : Option (List Char) :=
  closings.find? fun closing =>
    closing.isPrefixOf cs && (cs.drop closing.length).head?.all fun c => !Text.isWord c

/-- Takes a character if it can, and an ending if that comes to nothing. -/
def search? : List Char → Option (List Char)
  | [] => closing? []
  | c :: cs => (if isInner c then (search? cs).map (c :: ·) else none).or (closing? (c :: cs))

/-- The first name that the search comes to. -/
def firstFound? : List Char → Option (List Char)
  | [] => none
  | c :: cs => if isStart c then (search? cs).map (c :: ·) else none

/-- What the search may take: characters of a name, and an ending after which no word goes on. -/
structure Fits (cs more : List Char) : Prop where
  closes : ∃ inner, (∀ c ∈ inner, isInner c = true) ∧ ∃ closing ∈ closings, more = inner ++ closing
  front : ∃ rest, cs = more ++ rest ∧ EndsWord rest

def IsLongestFit (cs : List Char) : Option (List Char) → Prop
  | some more => Fits cs more ∧ ∀ other, Fits cs other → other.length ≤ more.length
  | none => ∀ more, ¬Fits cs more

theorem isWord_of_mem_closings : ∀ closing ∈ closings, ∀ c ∈ closing, Text.isWord c = true := by
  have hAll : closings.all (·.all Text.isWord) = true := rfl
  simpa only [List.all_eq_true] using hAll

/-- After the first character, what the search may take is what a name may go on with. -/
theorem goesOn_iff_fits : GoesOn [c] cs more ↔ Fits cs more := by
  constructor
  · rintro ⟨hInner, ⟨before, hSome, closing, hClosing, hName⟩, hFront⟩
    obtain ⟨first, inner, rfl⟩ := List.exists_cons_of_ne_nil hSome
    obtain ⟨rfl, rfl⟩ := List.cons.inj hName
    exact ⟨⟨inner, (List.forall_mem_append.mp hInner).1, closing, hClosing, rfl⟩, hFront⟩
  · rintro ⟨⟨inner, hInner, closing, hClosing, rfl⟩, hFront⟩
    have hWord : ∀ x ∈ closing, isInner x = true := fun x hx => by
      rw [isInner, isWord_of_mem_closings closing hClosing x hx, Bool.true_or]
    exact ⟨List.forall_mem_append.mpr ⟨hInner, hWord⟩,
      ⟨c :: inner, List.cons_ne_nil c inner, closing, hClosing, rfl⟩, hFront⟩

/-- No ending reaches beyond a place after which no word goes on, since endings are words. -/
theorem length_le_of_endsWord {closing rest : List Char} (hClosing : closing ∈ closings)
    (hFront : closing <+: more ++ rest) (hEnds : EndsWord rest) : closing.length ≤ more.length := by
  refine Decidable.byContradiction fun hLonger => ?_
  obtain ⟨later, rfl⟩ := List.prefix_of_prefix_length_le (List.prefix_append more rest) hFront
    (Nat.le_of_not_le hLonger)
  have hLater : later <+: rest := (List.prefix_append_right_inj more).mp hFront
  cases later with
  | nil => exact hLonger (by simp)
  | cons c later =>
      obtain ⟨_, rfl⟩ := hLater
      have hWord := isWord_of_mem_closings _ hClosing c (by simp)
      rw [hEnds c (by simp)] at hWord
      cases hWord

theorem Fits.length_le {closing : List Char} (h : Fits cs more) (hClosing : closing ∈ closings)
    (hFits : Fits cs closing) : closing.length ≤ more.length := by
  obtain ⟨rest, rfl, hEnds⟩ := h.front
  obtain ⟨later, hText, _⟩ := hFits.front
  exact length_le_of_endsWord hClosing ⟨later, hText.symm⟩ hEnds

/-- Either an ending stands here, or the search may take a character. -/
theorem Fits.cases (h : Fits (c :: cs) more) :
    more ∈ closings ∨ isInner c = true ∧ ∃ later, more = c :: later ∧ Fits cs later := by
  obtain ⟨⟨inner, hInner, closing, hClosing, rfl⟩, rest, hText, hEnds⟩ := h
  cases inner with
  | nil => exact .inl hClosing
  | cons first inner =>
      rw [List.cons_append, List.cons_append] at hText
      obtain ⟨rfl, hRest⟩ := List.cons.inj hText
      obtain ⟨hFirst, hInner⟩ := List.forall_mem_cons.mp hInner
      exact .inr ⟨hFirst, inner ++ closing, rfl, ⟨inner, hInner, closing, hClosing, rfl⟩, rest, hRest,
        hEnds⟩

theorem Fits.cons (h : Fits cs more) (hInner : isInner c = true) : Fits (c :: cs) (c :: more) := by
  obtain ⟨⟨inner, hAll, closing, hClosing, rfl⟩, rest, rfl, hEnds⟩ := h
  exact ⟨⟨c :: inner, List.forall_mem_cons.mpr ⟨hInner, hAll⟩, closing, hClosing, rfl⟩, rest, rfl,
    hEnds⟩

theorem fits_closing_iff {closing : List Char} (hClosing : closing ∈ closings) :
    Fits cs closing ↔
      (closing.isPrefixOf cs && (cs.drop closing.length).head?.all fun c => !Text.isWord c) = true := by
  rw [Bool.and_eq_true, List.isPrefixOf_iff_prefix]
  constructor
  · rintro ⟨_, rest, rfl, hEnds⟩
    refine ⟨List.prefix_append closing rest, ?_⟩
    rw [List.drop_left]
    cases rest with
    | nil => rfl
    | cons c rest => simpa using hEnds c rfl
  · rintro ⟨⟨rest, rfl⟩, hEnds⟩
    rw [List.drop_left] at hEnds
    refine ⟨⟨[], nofun, closing, hClosing, rfl⟩, rest, rfl, fun c hc => ?_⟩
    rw [Option.mem_def.mp hc] at hEnds
    simpa using hEnds

theorem isLongestFit_closing? (hHere : ∀ more, Fits cs more → more ∈ closings) :
    IsLongestFit cs (closing? cs) := by
  unfold closing?
  cases hFound : closings.find? _ with
  | some closing =>
      have hClosing := List.mem_of_find?_eq_some hFound
      have hPasses := List.find?_some hFound
      have hFits := (fits_closing_iff hClosing).mpr hPasses
      exact ⟨hFits, fun other hOther => hFits.length_le (hHere other hOther) hOther⟩
  | none =>
      intro more hMore
      have hClosing := hHere more hMore
      exact List.find?_eq_none.mp hFound more hClosing ((fits_closing_iff hClosing).mp hMore)

/-- What the search comes to first is the longest that it may take. -/
theorem isLongestFit_search? (cs : List Char) : IsLongestFit cs (search? cs) := by
  induction cs with
  | nil =>
      refine isLongestFit_closing? fun more hMore => ?_
      obtain ⟨⟨inner, _, closing, hClosing, rfl⟩, rest, hText, _⟩ := hMore
      obtain ⟨hInner, _⟩ := List.append_eq_nil_iff.mp (List.append_eq_nil_iff.mp hText.symm).1
      rwa [hInner, List.nil_append]
  | cons c cs ih =>
      rw [search?]
      split
      · next hInner =>
          cases hSearch : search? cs with
          | some more =>
              rw [hSearch] at ih
              refine ⟨ih.1.cons hInner, fun other hOther => ?_⟩
              rcases hOther.cases with hClosing | ⟨_, later, rfl, hLater⟩
              · exact (ih.1.cons hInner).length_le hClosing hOther
              · exact Nat.succ_le_succ (ih.2 later hLater)
          | none =>
              rw [hSearch] at ih
              refine isLongestFit_closing? fun more hMore => hMore.cases.resolve_right ?_
              rintro ⟨_, later, _, hLater⟩
              exact ih later hLater
      · next hOuter =>
          refine isLongestFit_closing? fun more hMore => hMore.cases.resolve_right ?_
          exact fun hTaken => hOuter hTaken.1

theorem isLongestFound_firstFound? (text : List Char) : IsLongestFound text (firstFound? text) := by
  cases text with
  | nil => exact not_isName_nil
  | cons c cs =>
      have hSearch := isLongestFit_search? cs
      rw [firstFound?]
      cases hStart : isStart c with
      | false => exact not_isName_of_start hStart
      | true =>
          rw [if_pos rfl]
          cases hFound : search? cs with
          | some more =>
              rw [hFound] at hSearch
              exact isLongestName_cons hStart (goesOn_iff_fits.mpr hSearch.1) fun other hOther =>
                hSearch.2 other (goesOn_iff_fits.mp hOther)
          | none =>
              rw [hFound] at hSearch
              exact not_isName_cons fun more hMore => hSearch more (goesOn_iff_fits.mp hMore)

/-- The type of an error that is told as a text is the longest name of an exception that the text starts
with, and there is none if there is no such name. It is the name that the search comes to first. -/
theorem type_is_longest_name (message : String) :
    (∀ name : String, (ItemError.plain message).type? = some name ↔
      IsLongestName message.toList name.toList) ∧
    ((ItemError.plain message).type? = none ↔ ∀ name, ¬IsName message.toList name) ∧
    (ItemError.plain message).type?.map String.toList = firstFound? message.toList := by
  have hLongest := isLongestFound_ofText? message
  change (∀ name : String, ofText? message = some name ↔ _) ∧ (ofText? message = none ↔ _) ∧
    (ofText? message).map String.toList = _
  refine ⟨fun name => ?_, ?_, hLongest.unique (isLongestFound_firstFound? message.toList)⟩
  · rw [← hLongest.eq_some_iff, Option.map_eq_some_iff]
    constructor
    · exact fun hFound => ⟨name, hFound, rfl⟩
    · rintro ⟨found, hFound, hSame⟩
      rwa [← String.toList_inj.mp hSame]
  · rw [← hLongest.eq_none_iff, Option.map_eq_none_iff]

/-- An ending inside a word ends no name. -/
example : firstFound? "a.bException.Errors".toList = some "a.bException".toList := by decide +kernel

end Indexer.ErrorName
