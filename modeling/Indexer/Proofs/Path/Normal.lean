import Indexer.Path.Host
import Indexer.Proofs.Text.Pieces

/-! Normal paths: absolute, and without a part that is not the name of an entry. Whatever is read
from a text and normalized is normal. It is real as well, for the way to it goes through no link, and a
real path stays as it is when it is normalized again. -/
namespace Indexer

namespace Path

variable {link : Path → Option Path} {p : Path} {done : List String} {part : String}

theorem isTidy_ofString (s : String) : (ofString s).IsTidy := by
  intro part hPart
  obtain ⟨piece, hPiece, rfl⟩ := List.mem_map.1 hPart
  obtain ⟨hSplit, hKept⟩ := List.mem_filter.1 hPiece
  obtain ⟨hSome, hDot⟩ := of_decide_eq_true hKept
  refine ⟨fun h => hSome (String.ofList_injective h), fun h => hDot (String.ofList_injective h),
    fun h => ?_⟩
  rw [String.toList_ofList] at h
  exact absurd (Text.unmarked_of_mem_splitAt hSplit _ h) (by decide)

theorem IsTidy.child (h : p.IsTidy) (hEntry : part ≠ "" ∧ part ≠ "." ∧ '/' ∉ part.toList) :
    (p.child part).IsTidy :=
  List.forall_mem_append.2 ⟨h, List.forall_mem_singleton.2 hEntry⟩

/-! ### Real paths -/

theorem isReal_top : (⟨1, []⟩ : Path).IsReal link where
  isNormal := ⟨rfl, List.forall_mem_nil _, List.not_mem_nil⟩
  no_link _ hSome hAbove := absurd (List.prefix_nil.mp hAbove) hSome

/-- What is above a real path is real. -/
theorem IsReal.above {parts : List String} (h : p.IsReal link) (hAbove : parts <+: p.parts) :
    (⟨1, parts⟩ : Path).IsReal link where
  isNormal := ⟨rfl, fun part hPart => h.isNormal.isTidy part (hAbove.subset hPart),
    fun hDots => h.isNormal.no_dots (hAbove.subset hDots)⟩
  no_link above hSome hPrefix := h.no_link above hSome (hPrefix.trans hAbove)

theorem IsReal.up (h : (⟨1, done.reverse⟩ : Path).IsReal link) :
    (⟨1, (done.drop 1).reverse⟩ : Path).IsReal link :=
  h.above (List.reverse_prefix.mpr (List.drop_suffix 1 done))

/-- An entry of a real directory is real unless it is a link. -/
theorem IsReal.enter (h : (⟨1, done.reverse⟩ : Path).IsReal link)
    (hEntry : part ≠ "" ∧ part ≠ "." ∧ '/' ∉ part.toList) (hDots : part ≠ "..")
    (hLink : link ⟨1, (part :: done).reverse⟩ = none) :
    (⟨1, (part :: done).reverse⟩ : Path).IsReal link := by
  rw [List.reverse_cons] at hLink ⊢
  refine ⟨⟨rfl, ?_, ?_⟩, fun above hSome hAbove => ?_⟩
  · exact IsTidy.child h.isNormal.isTidy hEntry
  · rw [List.mem_append, List.mem_singleton]
    exact fun hMem => hMem.elim h.isNormal.no_dots fun hSame => hDots hSame.symm
  · rcases List.prefix_concat_iff.mp hAbove with rfl | hBefore
    · exact hLink
    · exact h.no_link above hSome hBefore

end Path

namespace Host

variable {h : Host} {p q : Path} {done parts : List String}

theorem isTidy_expandHome (hTidy : p.IsTidy) (hExpand : h.expandHome p = .ok q) : q.IsTidy := by
  unfold expandHome at hExpand
  split at hExpand
  · next first rest _ hParts =>
      split at hExpand
      · split at hExpand
        · next home _ =>
            obtain rfl := Except.ok.inj hExpand
            refine List.forall_mem_append.2 ⟨Path.isTidy_ofString home, fun part hPart => hTidy part ?_⟩
            exact hParts ▸ List.mem_cons_of_mem _ hPart
        · cases hExpand
      · obtain rfl := Except.ok.inj hExpand
        exact hTidy
  · obtain rfl := Except.ok.inj hExpand
    exact hTidy

/-- From a real place on, tidy parts lead to a real place. -/
theorem isReal_follow (hDone : (⟨1, done.reverse⟩ : Path).IsReal h.link)
    (hParts : ∀ part ∈ parts, part ≠ "" ∧ part ≠ "." ∧ '/' ∉ part.toList) :
    (⟨1, h.follow done parts⟩ : Path).IsReal h.link := by
  fun_induction h.follow done parts with
  | case1 => exact hDone
  | case2 done rest ih => exact ih hDone.up fun part hPart => hParts part (List.mem_cons_of_mem _ hPart)
  | case3 done part rest _ target hLink ih =>
      refine ih ?_ fun part hPart => hParts part (List.mem_cons_of_mem _ hPart)
      rw [List.reverse_reverse]
      exact (h.isReal_of_link _ _ hLink).above (List.prefix_refl _)
  | case4 done part rest hDots hLink ih =>
      exact ih (hDone.enter (hParts part List.mem_cons_self) hDots hLink)
        fun part hPart => hParts part (List.mem_cons_of_mem _ hPart)

theorem isReal_resolve (hTidy : p.IsTidy) : (h.resolve p).IsReal h.link := by
  refine isReal_follow ?_ hTidy
  split
  · exact Path.isReal_top
  · rw [List.reverse_reverse]
    exact h.isReal_workingDirectory.above (List.prefix_refl _)

/-- The parts of a real path are followed without leaving it. -/
theorem follow_of_isReal (hReal : (⟨1, done.reverse ++ parts⟩ : Path).IsReal h.link) :
    h.follow done parts = done.reverse ++ parts := by
  induction parts generalizing done with
  | nil => rw [follow, List.append_nil]
  | cons part rest ih =>
      have hSplit : done.reverse ++ part :: rest = (part :: done).reverse ++ rest := by simp
      have hDots : part ≠ ".." := fun hSame =>
        hReal.isNormal.no_dots (hSame ▸ List.mem_append_right _ List.mem_cons_self)
      have hLink : h.link ⟨1, (part :: done).reverse⟩ = none :=
        hReal.no_link _ (by simp) (hSplit ▸ List.prefix_append _ _)
      rw [hSplit] at hReal ⊢
      rw [follow, if_neg hDots, hLink]
      exact ih hReal

theorem resolve_eq_self (hReal : p.IsReal h.link) : h.resolve p = p := by
  have hAbsolute : p.isAbsolute = true := by simp [Path.isAbsolute, hReal.isNormal.absolute]
  obtain ⟨slashes, parts⟩ := p
  obtain rfl : slashes = 1 := hReal.isNormal.absolute
  rw [resolve, if_pos hAbsolute, follow_of_isReal hReal]
  rfl

theorem isReal_normalize (hTidy : p.IsTidy) (hNormalize : h.normalize p = .ok q) : q.IsReal h.link := by
  rw [normalize] at hNormalize
  cases hExpand : h.expandHome p with
  | error e => rw [hExpand] at hNormalize; cases hNormalize
  | ok r =>
      rw [hExpand] at hNormalize
      obtain rfl := Except.ok.inj hNormalize
      exact isReal_resolve (isTidy_expandHome hTidy hExpand)

/-- Home directories have nothing to say about an absolute path. -/
theorem expandHome_of_slashes (hSlashes : p.slashes = 1) : h.expandHome p = .ok p := by
  obtain ⟨slashes, parts⟩ := p
  obtain rfl : slashes = 1 := hSlashes
  rfl

theorem normalize_eq_self (hReal : p.IsReal h.link) : h.normalize p = .ok p := by
  rw [normalize, expandHome_of_slashes hReal.isNormal.absolute]
  exact congrArg Except.ok (resolve_eq_self hReal)

example : (plain "/home/tester").resolve (.ofString "srv//docs/../x/.") = .ofString "/srv/x" := by decide

end Host
end Indexer
