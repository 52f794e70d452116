import Indexer.Settings.Environment
import Indexer.Proofs.Fallible
import Indexer.Proofs.Number.Reading
import Indexer.Proofs.Path.Normal
import Mathlib

/-! Settings from an environment. Whatever the variables hold, there are either no settings at all
or settings that batching and crawling can work with, and to normalize these once more changes
nothing. One value gets past the limits: an interval that is no number is neither at most zero nor
above it. -/
namespace Indexer

theorem Digest.Algorithm.name_of_ofName? {name : String} {a : Algorithm}
    (h : ofName? name = some a) : a.name = name := by
  have hFound := List.find?_some h
  exact of_decide_eq_true hFound

namespace Settings

variable {host : Host} {home : Path} {s t : Settings} {env : Environment}

/-- What may stand for the digest: nothing, or the name of one that there is. -/
def checksums : List (Option String) := [none, some "xxh64", some "md5", some "sha1", some "sha256"]

theorem dropTrailingSlashes_eq (url : String) :
    dropTrailingSlashes url = String.ofList (url.toList.rdropWhile (· = '/')) := rfl

theorem getLast?_dropTrailingSlashes (url : String) :
    (dropTrailingSlashes url).toList.getLast? ≠ some '/' := by
  rw [dropTrailingSlashes_eq, String.toList_ofList]
  intro h
  obtain ⟨hSome, hLast⟩ := List.mem_getLast?_eq_getLast h
  exact List.rdropWhile_last_not _ _ hSome (decide_eq_true hLast.symm)

theorem dropTrailingSlashes_eq_self {url : String} (h : url.toList.getLast? ≠ some '/') :
    dropTrailingSlashes url = url := by
  have hKept : url.toList.rdropWhile (· = '/') = url.toList := by
    rw [List.rdropWhile_eq_self_iff]
    intro hSome hSlash
    exact h ((List.getLast?_eq_some_getLast hSome).trans (congrArg some (of_decide_eq_true hSlash)))
  rw [dropTrailingSlashes_eq, hKept, String.ofList_toList]

theorem mem_of_checkChecksum {given checked : Option String}
    (h : checkChecksum given = .ok checked) : checked ∈ checksums := by
  unfold checkChecksum at h
  split at h
  · obtain rfl := Except.ok.inj h
    decide
  · split at h
    · obtain rfl := Except.ok.inj h
      decide
    · split at h
      · next name hName hKnown =>
          obtain rfl := Except.ok.inj h
          obtain ⟨a, ha⟩ := Option.isSome_iff_exists.1 hKnown
          obtain rfl := Digest.Algorithm.name_of_ofName? ha
          cases a <;> decide
      · cases h

theorem checkChecksum_eq_self {c : Option String} (h : c ∈ checksums) :
    checkChecksum c = .ok c := by
  simp only [checksums, List.mem_cons, List.not_mem_nil, or_false] at h
  rcases h with rfl | rfl | rfl | rfl | rfl <;> rfl

theorem checkLimits_eq_ok_iff : checkLimits s = .ok () ↔
    s.bulkSize.isBelow 1 = false ∧ s.flushInterval.isAtMost 0 = false ∧
      s.maxRetries.isBelow 0 = false := by
  unfold checkLimits
  split_ifs <;> simp_all

theorem normalize_eq_ok_iff : s.normalize host = .ok t ↔
    ∃ statePath roots checksum, host.normalize s.statePath = .ok statePath ∧
      s.roots.mapM host.normalize = .ok roots ∧ checkChecksum s.checksum = .ok checksum ∧
      checkLimits s = .ok () ∧
      { s with statePath, roots, checksum, url := dropTrailingSlashes s.url } = t := by
  simp only [normalize, bind_eq_ok_iff, mapError_eq_ok_iff, pure, Except.pure, Except.ok.injEq]
  constructor
  · rintro ⟨statePath, hState, roots, hRoots, checksum, hChecksum, ⟨⟩, hLimits, rfl⟩
    exact ⟨statePath, roots, checksum, hState, hRoots, hChecksum, hLimits, rfl⟩
  · rintro ⟨statePath, roots, checksum, hState, hRoots, hChecksum, hLimits, rfl⟩
    exact ⟨statePath, hState, roots, hRoots, checksum, hChecksum, (), hLimits, rfl⟩

/-- Settings in the form they are used in. -/
structure IsNormal (host : Host) (s : Settings) : Prop where
  statePath : s.statePath.IsReal host.link
  roots : ∀ root ∈ s.roots, root.IsReal host.link
  checksum : s.checksum ∈ checksums
  url : s.url.toList.getLast? ≠ some '/'
  limits : checkLimits s = .ok ()

theorem isNormal_of_normalize (hState : s.statePath.IsTidy) (hRoots : ∀ root ∈ s.roots, root.IsTidy)
    (h : s.normalize host = .ok t) : t.IsNormal host := by
  obtain ⟨statePath, roots, checksum, hStatePath, hRoots', hChecksum, hLimits, rfl⟩ :=
    normalize_eq_ok_iff.1 h
  exact {
    statePath := Host.isReal_normalize hState hStatePath
    roots := forall_mem_of_mapM hRoots' fun root hRoot _ => Host.isReal_normalize (hRoots root hRoot)
    checksum := mem_of_checkChecksum hChecksum
    url := getLast?_dropTrailingSlashes s.url
    limits := hLimits }

/-- Normal settings stay as they are. -/
theorem IsNormal.normalize_eq (h : s.IsNormal host) : s.normalize host = .ok s := by
  refine normalize_eq_ok_iff.2 ⟨s.statePath, s.roots, s.checksum, Host.normalize_eq_self h.statePath,
    mapM_eq_ok_iff.2 (List.forall₂_same.2 fun root hRoot => Host.normalize_eq_self (h.roots root hRoot)),
    checkChecksum_eq_self h.checksum, h.limits, ?_⟩
  rw [dropTrailingSlashes_eq_self h.url]

theorem isTidy_readRoots (list : String) : ∀ root ∈ readRoots list, root.IsTidy := by
  intro root hRoot
  obtain ⟨piece, -, rfl⟩ := List.mem_map.1 hRoot
  exact Path.isTidy_ofString _

theorem readFilled_ok {name : String} {kept q : Quantity}
    {read : String → Except SettingsError Quantity} (h : readFilled env name kept read = .ok q) :
    (∃ value, env.filled? name = some value ∧ read value = .ok q) ∨
      env.filled? name = none ∧ q = kept := by
  unfold readFilled at h
  split at h
  · next value hValue => exact .inl ⟨value, hValue, mapError_eq_ok_iff.1 h⟩
  · next hNone => exact .inr ⟨hNone, (Except.ok.inj h).symm⟩

theorem compareInt_of_readWholeNumber {value : String} {q : Quantity}
    (h : readWholeNumber value = .ok q) (i : Int) : q.compareInt i ≠ none := by
  unfold readWholeNumber at h
  split at h
  · cases h
  · obtain rfl := Except.ok.inj h
    exact nofun
  · cases h

/-- A limit from below that whole numbers pass is a limit that they keep. -/
theorem isAtLeast_of_readFilled {name : String} {kept q : Quantity} {i : Int}
    (h : readFilled env name kept readWholeNumber = .ok q) (hKept : kept.compareInt i ≠ none)
    (hLimit : q.isBelow i = false) : q.isAtLeast i = true := by
  have hOrder : q.compareInt i ≠ none := by
    rcases readFilled_ok h with ⟨value, -, hRead⟩ | ⟨-, rfl⟩
    · exact compareInt_of_readWholeNumber hRead i
    · exact hKept
  rw [Quantity.isAtLeast_eq_not_isBelow hOrder, hLimit]
  rfl

/-- A double that is not at most a limit is above it, unless the numeral spells no number. -/
theorem isAbove_iff_of_readNumber {value : String} {q : Quantity} {i : Int}
    (h : readNumber value = .ok q) (hLimit : q.isAtMost i = false) :
    q.isAbove i = true ↔ Number.spellsNaN value = false := by
  unfold readNumber at h
  split at h
  · next x hFloat =>
      obtain rfl := Except.ok.inj h
      have hNaN : (Quantity.number (.float x)).compareInt i = none ↔
          Number.spellsNaN value = true :=
        Number.compareInt_float_eq_none_iff.trans (Number.dyadic_eq_nan_iff_of_readFloat? hFloat)
      rw [← Bool.not_eq_true, ← hNaN]
      by_cases hOrder : (Quantity.number (.float x)).compareInt i = none
      · simp [Quantity.isAbove, hOrder]
      · simp [Quantity.isAbove_eq_not_isAtMost hOrder, hLimit, hOrder]
  · cases h

/-- An interval that is not at most zero is above zero, unless its variable spells no number. -/
theorem isAbove_iff_of_readFilled {name : String} {kept q : Quantity} {i : Int}
    (h : readFilled env name kept readNumber = .ok q) (hKept : kept.compareInt i ≠ none)
    (hLimit : q.isAtMost i = false) :
    q.isAbove i = true ↔
      ∀ value, env.filled? name = some value → Number.spellsNaN value = false := by
  rcases readFilled_ok h with ⟨value, hValue, hRead⟩ | ⟨hNone, rfl⟩
  · rw [hValue, isAbove_iff_of_readNumber hRead hLimit]
    simp
  · rw [Quantity.isAbove_eq_not_isAtMost hKept, hLimit, hNone]
    simp

theorem override_ok (h : s.override env = .ok t) :
    readFilled env "CRAWLER_BULK_SIZE" s.bulkSize readWholeNumber = .ok t.bulkSize ∧
      readFilled env "CRAWLER_FLUSH_INTERVAL" s.flushInterval readNumber = .ok t.flushInterval ∧
      readFilled env "CRAWLER_MAX_RETRIES" s.maxRetries readWholeNumber = .ok t.maxRetries ∧
      t.roots = ((env.filled? "CRAWLER_ROOTS").map readRoots).getD s.roots ∧
      t.statePath = ((env.filled? "CRAWLER_STATE_PATH").map Path.ofString).getD s.statePath := by
  simp only [override, bind_eq_ok_iff, pure, Except.pure, Except.ok.injEq] at h
  obtain ⟨bulkSize, hBulk, flushInterval, hFlush, maxRetries, hRetries, _, -, rfl⟩ := h
  exact ⟨hBulk, hFlush, hRetries, rfl, rfl⟩

/-- The paths of the initial settings have names of entries as their parts. -/
theorem isNormal_of_normalize_initial (hHome : home.IsTidy)
    (h : (initial home).normalize host = .ok s) : s.IsNormal host := by
  have hCrawler : (home.child ".crawler").IsTidy := hHome.child (by decide)
  refine isNormal_of_normalize (hCrawler.child (by decide)) ?_ h
  exact List.forall_mem_singleton.2 (hHome.child (by decide))

/-- Settings from an environment hold whole numbers in their limits, an interval above zero unless
it is spelled as no number, a digest that there is, an address without a slash at its end and normal
paths; and normalizing them once more changes none of them. -/
theorem environment_gives_normal_settings (h : ofEnvironment host env = .ok s) :
    s.bulkSize.isAtLeast 1 = true ∧ s.maxRetries.isAtLeast 0 = true ∧
      (s.flushInterval.isAbove 0 = true ↔
        ∀ value, env.filled? "CRAWLER_FLUSH_INTERVAL" = some value →
          Number.spellsNaN value = false) ∧
      s.checksum ∈ checksums ∧
      s.url.toList.getLast? ≠ some '/' ∧
      s.statePath.IsNormal ∧ (∀ root ∈ s.roots, root.IsNormal) ∧
      s.normalize host = .ok s := by
  simp only [ofEnvironment, bind_eq_ok_iff, mapError_eq_ok_iff] at h
  obtain ⟨home, hExpand, first, hFirst, overridden, hOverride, hLast⟩ := h
  have hTilde : (⟨0, ["~"]⟩ : Path).IsTidy := List.forall_mem_singleton.2 (by decide)
  have hHome : home.IsTidy := Host.isTidy_expandHome hTilde hExpand
  have hInitial := isNormal_of_normalize_initial hHome hFirst
  obtain ⟨hBulk, hFlush, hRetries, hRoots, hState⟩ := override_ok hOverride
  -- The paths that the variables hold are read from texts, the others are normal already.
  have hNormal : s.IsNormal host := by
    refine isNormal_of_normalize ?_ ?_ hLast
    · rw [hState]
      cases env.filled? "CRAWLER_STATE_PATH" with
      | none => exact hInitial.statePath.isNormal.isTidy
      | some value => exact Path.isTidy_ofString value
    · rw [hRoots]
      cases env.filled? "CRAWLER_ROOTS" with
      | none => exact fun root hRoot => (hInitial.roots root hRoot).isNormal.isTidy
      | some value => exact isTidy_readRoots value
  obtain ⟨_, _, _, -, -, -, hLimits, rfl⟩ := normalize_eq_ok_iff.1 hLast
  obtain ⟨hBulkLimit, hFlushLimit, hRetryLimit⟩ := checkLimits_eq_ok_iff.1 hLimits
  obtain ⟨_, _, _, -, -, -, -, rfl⟩ := normalize_eq_ok_iff.1 hFirst
  have hInterval : (Quantity.number (.float 5.0)).compareInt 0 ≠ none := by decide +kernel
  exact ⟨isAtLeast_of_readFilled hBulk nofun hBulkLimit,
    isAtLeast_of_readFilled hRetries nofun hRetryLimit,
    isAbove_iff_of_readFilled hFlush hInterval hFlushLimit,
    hNormal.checksum, hNormal.url, hNormal.statePath.isNormal,
    fun root hRoot => (hNormal.roots root hRoot).isNormal, hNormal.normalize_eq⟩

/-- Variables with white space, a sign, a group mark, dots and slashes to take away. -/
def roughEnvironment : Environment := [
  ("CRAWLER_ROOTS", " ~/docs,/srv/../data// "), ("CRAWLER_STATE_PATH", "//var/./state.db"),
  ("CRAWLER_URL", "http://node:9200//"), ("CRAWLER_BULK_SIZE", " +1_0"),
  ("CRAWLER_FLUSH_INTERVAL", "5e-1"), ("CRAWLER_CHECKSUM", " sha256 ")]

theorem roughEnvironment_gives_normal_settings :
    ∃ s, ofEnvironment (.plain "/home/tester") roughEnvironment = .ok s ∧
      s.bulkSize.isAtLeast 1 = true ∧ s.maxRetries.isAtLeast 0 = true ∧
      s.flushInterval.isAbove 0 = true ∧
      s.checksum ∈ checksums ∧
      s.url.toList.getLast? ≠ some '/' ∧
      s.statePath.IsNormal ∧ (∀ root ∈ s.roots, root.IsNormal) ∧
      s.normalize (.plain "/home/tester") = .ok s := by
  obtain ⟨s, h⟩ : ∃ s, ofEnvironment (.plain "/home/tester") roughEnvironment = .ok s := ⟨_, rfl⟩
  obtain ⟨hBulk, hRetries, hInterval, hRest⟩ := environment_gives_normal_settings h
  refine ⟨s, h, hBulk, hRetries, hInterval.2 fun value hValue => ?_, hRest⟩
  obtain rfl : "5e-1" = value := Option.some.inj hValue
  decide

/-- The interval is compared with zero, which a value that is no number passes on either side. -/
theorem interval_without_number_is_accepted :
    ∃ s, ofEnvironment (.plain "/home/tester") [("CRAWLER_FLUSH_INTERVAL", "nan")] = .ok s ∧
      s.flushInterval.isAbove 0 = false := by
  obtain ⟨s, h, hInterval⟩ : ∃ s,
    ofEnvironment (.plain "/home/tester") [("CRAWLER_FLUSH_INTERVAL", "nan")] = .ok s ∧
      s.flushInterval = .number (.float (0.0 / 0.0)) := ⟨_, rfl, rfl⟩
  refine ⟨s, h, ?_⟩
  rw [hInterval]
  decide +kernel

end Settings
end Indexer
