import Indexer.File.Checksum

/-! The two ways to a checksum. By the law of updates it makes no difference whether
the bytes of a file are taken in piece by piece or at once: the checksum is the digest
of all of them. The pieces are what comes of reading on until nothing is left. -/
namespace Indexer

open Digest

theorem Digest.isIncremental_append : IsIncremental fun (data part : ByteArray) => data ++ part where
  empty _ := ByteArray.append_empty
  append _ _ _ := ByteArray.append_assoc

/-- Digests obey the law of updates. -/
theorem Digest.Running.isIncremental_update : IsIncremental update where
  empty r := by rw [update, ByteArray.append_empty]
  append r part more := by rw [update, update, update, ByteArray.append_assoc]

namespace Checksum

variable {data : ByteArray} {pos : Nat} {parts : List ByteArray}

/-- Reading a file from a position to its end. A read is given a full piece or what
is left of it, the next one goes on behind it, and the first one that is given
nothing is the last. -/
inductive ReadsOut (data : ByteArray) : Nat → List ByteArray → Prop where
  | stop {pos : Nat} (hNothing : data.extract pos (pos + pieceSize) = ByteArray.empty) :
      ReadsOut data pos []
  | next {pos : Nat} {parts : List ByteArray}
      (hSome : data.extract pos (pos + pieceSize) ≠ ByteArray.empty)
      (hRest : ReadsOut data (pos + (data.extract pos (pos + pieceSize)).size) parts) :
      ReadsOut data pos (data.extract pos (pos + pieceSize) :: parts)

theorem extract_eq_empty_iff :
    data.extract pos (pos + pieceSize) = ByteArray.empty ↔ data.size ≤ pos := by
  rw [ByteArray.extract_eq_empty_iff, pieceSize]
  omega

theorem pieces_of_le (h : data.size ≤ pos) : pieces data pos = [] := by
  rw [pieces, dif_neg (Nat.not_lt.mpr h)]

/-- Only the last piece can be short, and behind it there is nothing either way. -/
theorem pieces_behind (data : ByteArray) (pos : Nat) :
    pieces data (pos + (data.extract pos (pos + pieceSize)).size) =
      pieces data (pos + pieceSize) := by
  rw [ByteArray.size_extract]
  by_cases hFull : pos + pieceSize ≤ data.size
  · rw [Nat.min_eq_left hFull, Nat.add_sub_cancel_left]
  · rw [pieces_of_le (by omega), pieces_of_le (by omega)]

theorem ReadsOut.eq_pieces (h : ReadsOut data pos parts) : parts = pieces data pos := by
  induction h with
  | stop hNothing => rw [pieces_of_le (extract_eq_empty_iff.mp hNothing)]
  | next hSome _ ih =>
      have hMore := Nat.lt_of_not_le (mt extract_eq_empty_iff.mpr hSome)
      rw [pieces, dif_pos hMore, ih, pieces_behind]

theorem readsOut_pieces (data : ByteArray) (pos : Nat) : ReadsOut data pos (pieces data pos) := by
  -- A read goes on where the bytes that it was given end and not a full piece further, so the
  -- induction is on what is left and not the one of the pieces.
  induction hLeft : data.size - pos using Nat.strongRecOn generalizing pos with
  | _ left ih =>
      by_cases hMore : pos < data.size
      · have hSome := mt extract_eq_empty_iff.mp (Nat.not_le.mpr hMore)
        rw [pieces, dif_pos hMore, ← pieces_behind]
        refine .next hSome (ih _ ?_ _ rfl)
        rw [ByteArray.size_extract, pieceSize]
        omega
      · have hEnd := Nat.le_of_not_lt hMore
        rw [pieces_of_le hEnd]
        exact .stop (extract_eq_empty_iff.mpr hEnd)

/-- Reading a file to its end gives its pieces, and cannot go any other way. -/
theorem readsOut_iff : ReadsOut data pos parts ↔ parts = pieces data pos :=
  ⟨ReadsOut.eq_pieces, fun h => h ▸ readsOut_pieces data pos⟩

/-- The pieces from a position on are the rest of the bytes, for whatever obeys the law
of updates. -/
theorem foldl_pieces {σ : Type} {take : σ → ByteArray → σ} (hTake : IsIncremental take)
    (data : ByteArray) (pos : Nat) (s : σ) :
    (pieces data pos).foldl take s = take s (data.extract pos data.size) := by
  induction pos using pieces.induct data generalizing s with
  | case1 pos hMore ih =>
      have hPiece : data.extract pos (pos + pieceSize) ++ data.extract (pos + pieceSize) data.size =
          data.extract pos data.size := by
        rw [ByteArray.extract_append_extract]
        ext1
        rw [ByteArray.data_extract, ByteArray.data_extract, Nat.min_eq_left (Nat.le_add_right _ _),
          Array.extract_eq_extract_right, ByteArray.size_data]
        omega
      rw [pieces, dif_pos hMore, List.foldl_cons, ih, hTake.append, hPiece]
  | case2 pos hEnd =>
      have hNothing : data.extract pos data.size = ByteArray.empty := by
        rw [ByteArray.extract_eq_empty_iff]
        omega
      rw [pieces, dif_neg hEnd, List.foldl_nil, hNothing, hTake.empty]

/-- No byte is left out, and none comes twice. -/
theorem join_pieces (data : ByteArray) :
    (pieces data 0).foldl (· ++ ·) ByteArray.empty = data := by
  rw [foldl_pieces isIncremental_append, ByteArray.empty_append, ByteArray.extract_zero_size]

theorem ofBytes_eq (a : Algorithm) (data : ByteArray) : ofBytes a data = a.hex data := by
  rw [ofBytes, Running.start, Running.update, Running.hex, ByteArray.empty_append]

theorem ofPieces_eq (a : Algorithm) (data : ByteArray) : ofPieces a data = a.hex data := by
  rw [ofPieces, foldl_pieces Running.isIncremental_update, ByteArray.extract_zero_size]
  exact ofBytes_eq a data

/-- The checksum of a file is the digest of its bytes, if it can be read. -/
theorem toOption_ofFile (a : Algorithm) (t : FileTree) (p : Path) :
    (ofFile a t p).toOption = (t.read p).toOption.map a.hex := by
  rw [ofFile]
  cases t.read p with
  | error f => rfl
  | ok data => exact congrArg some (ofPieces_eq a data)

end Checksum
end Indexer
