import ReadAhead.Cache.Bitmap

/-!
  Buffer lengths — for which dimensions there is a bitmap, and how long its buffer is

  A bitmap is made around a buffer that is handed in, or blank. Both compute the length
  that the dimensions need in 64-bit words. The product of two dimensions always fits;
  four times the product need not. Half of the lengths that fit are longer than any buffer,
  and have no blank bitmap either.

  What is proved:
    1. `bufferLength?_eq` — the length computed in words is the exact one, or none if that
       is no count.
    2. `ofPixels?_eq_some_iff`, `blank?_eq_some_iff` — which bitmap each way of making one
       gives, and when it gives one.
    3. `buffer_lengths_exact` — so every bitmap is accounted by its exact length, a buffer
       is taken exactly if it has this length, and the buffer of a blank bitmap gives the
       bitmap back. The length is computed exactly if it is a count, and there is a blank
       bitmap exactly if it is no longer than a buffer can be.
    4. `buffer_lengths_exact_page` (anti-vacuity) — three pixels, and a blank page.
    5. `blank_overflows` — a square whose length is no count.
-/

namespace ReadAhead.Bitmap

/-- A row and a column of pixels are counted in 32 bits, so all pixels are in 64. -/
theorem area_lt (width height : UInt32) : width.toNat * height.toNat < UInt64.size :=
  calc width.toNat * height.toNat
    _ ≤ (UInt32.size - 1) * (UInt32.size - 1) :=
        Nat.mul_le_mul (Nat.le_sub_one_of_lt width.toNat_lt) (Nat.le_sub_one_of_lt height.toNat_lt)
    _ < UInt64.size := by decide

/-- **The length computed in words is the exact one**, as long as it is a count. -/
theorem bufferLength?_eq (width height : UInt32) :
    bufferLength? width height = Count.ofNat? (width.toNat * height.toNat * 4) := by
  have area : Count.mul? width.toUInt64 height.toUInt64
      = some (UInt64.ofNat (width.toNat * height.toNat)) := by
    rw [Count.mul?, UInt32.toNat_toUInt64, UInt32.toNat_toUInt64, if_pos (area_lt width height)]
  rw [bufferLength?, area, Option.bind_some, Count.mul?,
    UInt64.toNat_ofNat_of_lt' (area_lt width height)]
  rfl

theorem bufferLength?_of_lt {width height : UInt32}
    (fits : width.toNat * height.toNat * 4 < UInt64.size) :
    bufferLength? width height = some (UInt64.ofNat (width.toNat * height.toNat * 4)) := by
  rw [bufferLength?_eq, Count.ofNat?, if_pos fits]

theorem eq_iff {b c : Bitmap} :
    b = c ↔ b.width = c.width ∧ b.height = c.height ∧ b.pixels = c.pixels := by
  cases b
  cases c
  simp

variable {width height : UInt32} {b : Bitmap}

/-- A bitmap is made around a buffer if it is the one with these dimensions and this
buffer, and the length of the buffer is a count. -/
theorem ofPixels?_eq_some_iff {pixels : ByteArray} :
    ofPixels? width height pixels = some b ↔
      (b.width = width ∧ b.height = height ∧ b.pixels = pixels) ∧ pixels.size < UInt64.size := by
  unfold ofPixels?
  constructor
  · intro made
    split at made
    · cases made
    · next n _ =>
      split at made
      · next length =>
        cases made
        exact ⟨⟨rfl, rfl, rfl⟩, length ▸ n.toNat_lt⟩
      · cases made
  · rintro ⟨⟨rfl, rfl, rfl⟩, countable⟩
    have fits := b.size_pixels ▸ countable
    split
    · next refused =>
      rw [bufferLength?_of_lt fits] at refused
      cases refused
    · next n found =>
      have length : b.pixels.size = n.toNat :=
        b.size_pixels.trans (bufferLength?_eq_some found).symm
      rw [dif_pos length]

theorem blank?_eq_some_iff :
    blank? width height = some b ↔
      (b.width = width ∧ b.height = height ∧
        b.pixels = filled (width.toNat * height.toNat * 4) 0) ∧
      width.toNat * height.toNat * 4 < UInt64.size / 2 := by
  have longest (n : Nat) : n ≤ longestBuffer ↔ n < UInt64.size / 2 :=
    Nat.le_sub_one_iff_lt (by decide)
  unfold blank?
  split
  · next nothing =>
    rw [bufferLength?_eq, Count.ofNat?] at nothing
    simp only [reduceCtorEq, false_iff]
    rintro ⟨_, short⟩
    rw [if_pos (Nat.lt_trans short (by decide))] at nothing
    cases nothing
  · next n found =>
    have length := bufferLength?_eq_some found
    rw [← length]
    split
    · next short =>
      rw [Option.some_inj, eq_comm, eq_iff]
      exact (and_iff_left ((longest _).mp short)).symm
    · next long => exact iff_of_false nofun fun made => long ((longest _).mpr made.2)

theorem toNat_byteCount (countable : b.pixels.size < UInt64.size) :
    b.byteCount.toNat = b.width.toNat * b.height.toNat * 4 := by
  rw [byteCount, UInt64.toNat_ofNat_of_lt' countable, b.size_pixels]

/-- **Bitmaps are accounted by the exact length of their buffers.** For any dimensions and
any buffer: a bitmap that is made around the buffer, or blank, has these dimensions and
is accounted by four bytes for each pixel, in natural numbers. A buffer is taken, as it is,
exactly if it has this length. The length is computed without overflow exactly if it is a
count, and there is a blank bitmap exactly if it is below 2 ^ 63, half of the counts; its
buffer, with the same dimensions, gives an equal bitmap. -/
theorem buffer_lengths_exact (width height : UInt32) (pixels : ByteArray)
    (countable : pixels.size < UInt64.size) :
    let length := width.toNat * height.toNat * 4
    (∀ b, ofPixels? width height pixels = some b ∨ blank? width height = some b →
      b.width = width ∧ b.height = height ∧ b.byteCount.toNat = length) ∧
    ((ofPixels? width height pixels).isSome = true ↔ pixels.size = length) ∧
    (∀ b, ofPixels? width height pixels = some b → b.pixels = pixels) ∧
    ((bufferLength? width height).isSome = true ↔ length < UInt64.size) ∧
    ((blank? width height).isSome = true ↔ length < UInt64.size / 2) ∧
    ∀ b, blank? width height = some b → ofPixels? width height b.pixels = some b := by
  intro length
  have counted (short : length < UInt64.size / 2) : length < UInt64.size :=
    Nat.lt_trans short (by decide)
  refine ⟨?_, ⟨?_, ?_⟩, ?_, ?_, ⟨?_, ?_⟩, ?_⟩
  · rintro b (given | blank)
    · obtain ⟨⟨rfl, rfl, rfl⟩, fits⟩ := ofPixels?_eq_some_iff.mp given
      exact ⟨rfl, rfl, toNat_byteCount fits⟩
    · obtain ⟨⟨rfl, rfl, _⟩, short⟩ := blank?_eq_some_iff.mp blank
      exact ⟨rfl, rfl, toNat_byteCount (b.size_pixels ▸ counted short)⟩
  · intro given
    obtain ⟨b, given⟩ := Option.isSome_iff_exists.mp given
    obtain ⟨⟨rfl, rfl, rfl⟩, _⟩ := ofPixels?_eq_some_iff.mp given
    exact b.size_pixels
  · intro same
    have taken : ofPixels? width height pixels = some ⟨width, height, pixels, same⟩ :=
      ofPixels?_eq_some_iff.mpr ⟨⟨rfl, rfl, rfl⟩, countable⟩
    rw [taken, Option.isSome_some]
  · intro b given
    exact (ofPixels?_eq_some_iff.mp given).1.2.2
  · rw [bufferLength?_eq, Count.ofNat?]
    split
    · next fits => exact iff_of_true rfl fits
    · next large => exact iff_of_false Bool.false_ne_true large
  · intro blank
    obtain ⟨b, blank⟩ := Option.isSome_iff_exists.mp blank
    exact (blank?_eq_some_iff.mp blank).2
  · intro short
    have made : blank? width height = some ⟨width, height, filled length 0, size_filled _ _⟩ :=
      blank?_eq_some_iff.mpr ⟨⟨rfl, rfl, rfl⟩, short⟩
    rw [made, Option.isSome_some]
  · intro b blank
    obtain ⟨⟨rfl, rfl, _⟩, short⟩ := blank?_eq_some_iff.mp blank
    exact ofPixels?_eq_some_iff.mpr ⟨⟨rfl, rfl, rfl⟩, b.size_pixels ▸ counted short⟩

/-- **Not vacuous**: three pixels take twelve bytes and no fewer, and the buffer of a blank
page of 1240 by 1754 pixels gives the page back. -/
theorem buffer_lengths_exact_page :
    (ofPixels? 1 3 (filled 12 255)).isSome = true ∧
    (ofPixels? 1 3 (filled 11 255)).isSome = false ∧
    ∃ b, blank? 1240 1754 = some b ∧ b.byteCount.toNat = 8699840 ∧
      ofPixels? 1240 1754 b.pixels = some b := by
  have twelve := size_filled 12 255
  have eleven := size_filled 11 255
  obtain ⟨_, taken, _⟩ := buffer_lengths_exact 1 3 (filled 12 255) (twelve ▸ by decide)
  obtain ⟨_, short, _⟩ := buffer_lengths_exact 1 3 (filled 11 255) (eleven ▸ by decide)
  obtain ⟨lengths, _, _, _, fits, back⟩ :=
    buffer_lengths_exact 1240 1754 (filled 0 0) (size_filled 0 0 ▸ by decide)
  refine ⟨taken.mpr twelve, ?_, ?_⟩
  · rw [Bool.eq_false_iff, ne_eq, short, eleven]
    decide
  · obtain ⟨b, blank⟩ := Option.isSome_iff_exists.mp (fits.mpr (by decide))
    exact ⟨b, blank, (lengths b (.inr blank)).2.2, back b blank⟩

/-- **Not all lengths can be computed**: of a square with a side of 2 ^ 31, the length is
the smallest number that is no count. -/
theorem blank_overflows :
    (2147483648 : UInt32).toNat * (2147483648 : UInt32).toNat * 4 = UInt64.size ∧
    bufferLength? 2147483648 2147483648 = none ∧ blank? 2147483648 2147483648 = none := by
  have exceeds : (2147483648 : UInt32).toNat * (2147483648 : UInt32).toNat * 4 = UInt64.size := by
    decide
  refine ⟨exceeds, ?_, Option.eq_none_iff_forall_ne_some.mpr fun b blank => ?_⟩
  · rw [bufferLength?_eq, exceeds]
    rfl
  · obtain ⟨_, short⟩ := blank?_eq_some_iff.mp blank
    rw [exceeds] at short
    exact absurd short (by decide)

end ReadAhead.Bitmap
