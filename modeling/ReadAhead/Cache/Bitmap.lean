import ReadAhead.Numeric.Count

/-!
  Bitmaps — rendered pages

  A bitmap is a width, a height and a buffer with four bytes for each pixel. The
  length of the buffer is part of the type (`Bitmap.size_pixels`), so every
  bitmap there is has exactly `width · height · 4` bytes.

  The length is computed in 64-bit words. The largest dimensions do not fit:
  then neither way of making a bitmap gives one. A blank bitmap needs a new buffer
  besides, and no buffer is longer than the largest signed 64-bit number. Buffers that
  only the memory at hand is too small for are not told apart.

  What is proved: `bufferLength?_eq_some` says that the length computed in words
  is the product of the natural numbers, and `size_filled` that a buffer filled
  to a length has it. Together they are the proof that either way of making a
  bitmap carries along.
-/

namespace ReadAhead

/-- A rendered page or tile: four bytes for each pixel, row by row. -/
structure Bitmap where
  width : UInt32
  height : UInt32
  pixels : ByteArray
  size_pixels : pixels.size = width.toNat * height.toNat * 4

namespace Bitmap

/-- The bytes of a pixel: red, green, blue and opacity. -/
def bytesPerPixel : Count := 4

instance : BEq Bitmap where
  beq a b := a.width == b.width && a.height == b.height && a.pixels == b.pixels

/-- The length of the buffer that the dimensions need, if it fits a count. -/
def bufferLength? (width height : UInt32) : Option Count :=
  (Count.mul? width.toUInt64 height.toUInt64).bind (Count.mul? · bytesPerPixel)

theorem bufferLength?_eq_some {width height : UInt32} {n : Count}
    (h : bufferLength? width height = some n) : n.toNat = width.toNat * height.toNat * 4 := by
  simp only [bufferLength?, Count.mul?, Option.bind_eq_some_iff] at h
  obtain ⟨area, harea, hn⟩ := h
  split at harea
  case isFalse => simp at harea
  case isTrue hlt =>
    split at hn
    case isFalse => simp at hn
    case isTrue hlt' =>
      simp only [Option.some.injEq] at harea hn
      subst harea hn
      simp only [UInt64.toNat_ofNat', UInt32.toNat_toUInt64] at *
      rw [Nat.mod_eq_of_lt hlt', Nat.mod_eq_of_lt hlt]
      rfl

/-- A buffer of the given length with the same byte everywhere. -/
def filled (length : Nat) (byte : UInt8) : ByteArray :=
  length.fold (fun _ _ bytes => ByteArray.push bytes byte) (ByteArray.emptyWithCapacity length)

theorem size_filled (length : Nat) (byte : UInt8) : (filled length byte).size = length := by
  have size_fold (n : Nat) (start : ByteArray) :
      (n.fold (fun _ _ bytes => ByteArray.push bytes byte) start).size = start.size + n := by
    induction n with
    | zero => rfl
    | succ n ih => rw [Nat.fold_succ, ByteArray.size_push, ih, Nat.add_assoc]
  exact (size_fold length (ByteArray.emptyWithCapacity length)).trans (Nat.zero_add length)

/-- A bitmap around a buffer, if the buffer has the length that the dimensions
need. -/
def ofPixels? (width height : UInt32) (pixels : ByteArray) : Option Bitmap :=
  match h : bufferLength? width height with
  | none => none
  | some n =>
    if hs : pixels.size = n.toNat then
      some ⟨width, height, pixels, hs.trans (bufferLength?_eq_some h)⟩
    else none

/-- The length of the longest buffer that can be allocated: the largest signed word. -/
def longestBuffer : Nat := UInt64.size / 2 - 1

/-- A bitmap with all bytes zero, if its length fits a count and a buffer can have it. -/
def blank? (width height : UInt32) : Option Bitmap :=
  match h : bufferLength? width height with
  | none => none
  | some n =>
    if n.toNat ≤ longestBuffer then
      some ⟨width, height, filled n.toNat 0, (size_filled _ _).trans (bufferLength?_eq_some h)⟩
    else none

/-- The size of the buffer, by which a bitmap is accounted. -/
def byteCount (b : Bitmap) : Count := UInt64.ofNat b.pixels.size

end Bitmap

end ReadAhead
