import Mathlib.Data.List.Basic
import Mathlib.Order.MinMax
import ReadAhead.Viewport

/-!
  Viewports — the priorities, as distances from the screen

  A priority is computed from a range that is moved into the document and widened by the
  margin, which stops at zero and at the largest count. As natural numbers, none of
  this shows: a page of the document is on the screen, or so many pages from it, or
  further away.

  What is proved:
    1. `between_inside` — a range that is moved into a document with pages is a range of
       its pages.
    2. `priority_eq_visible_iff`, `priority_eq_nearby_iff` — the pages of each
       priority; all others are thumbnails.
    3. `priorityWith_eq_visible_iff`, `priorityWith_eq_nearby_iff` — pages that are wanted
       in advance are no more and no less than near.
    4. `ofPage_visible_iff`, `ofPage_nearby_iff` — with one page on the screen, the priority
       of a page is told by its distance from that one.
    5. `priorities_exact` — of a range given in either order, the pages of each priority are
       those at a distance, as integers; pages wanted in advance and wider margins raise
       priorities, and only so far.
    6. `priorities_exact_ends` (anti-vacuity) — a screen at the end of the longest document.
-/

namespace ReadAhead.Viewport

theorem between_inside (a b : Count) {pageCount : Count} (pages : 0 < pageCount) :
    (between a b pageCount).first ≤ (between a b pageCount).last ∧
      (between a b pageCount).last < pageCount := by
  simp only [UInt64.lt_iff_toNat_lt, UInt64.le_iff_toNat_le, between, UInt64.toNat_min,
    UInt64.toNat_max, Count.toNat_subFloored, UInt64.toNat_zero, UInt64.toNat_one] at pages ⊢
  omega

theorem isVisible_iff (v : Viewport) {page : Count} (inside : page < v.pageCount) :
    v.isVisible page = true ↔ v.first ≤ page ∧ page ≤ v.last := by
  have pages : v.pageCount ≠ 0 := by
    rintro no_pages
    rw [no_pages] at inside
    exact UInt64.not_lt_zero inside
  unfold isVisible visible?
  by_cases order : v.last < v.first
  · rw [if_pos (.inr order)]
    simp only [Bool.false_eq_true, false_iff, UInt64.lt_iff_toNat_lt, UInt64.le_iff_toNat_le]
      at order ⊢
    omega
  · rw [if_neg (not_or.mpr ⟨pages, order⟩)]
    simp only [Bool.and_eq_true, decide_eq_true_eq]

theorem isNear_iff (v : Viewport) (page : Count) : v.isNear page = true ↔
    v.first.toNat ≤ page.toNat + v.margin.toNat ∧ page.toNat ≤ v.last.toNat + v.margin.toNat := by
  have word := page.toNat_lt
  simp only [isNear, Bool.and_eq_true, decide_eq_true_eq, UInt64.le_iff_toNat_le,
    Count.toNat_subFloored, Count.toNat_addCapped, UInt64.size]
  omega

/-- **The pages on the screen.** -/
theorem priority_eq_visible_iff (v : Viewport) (page : Count) :
    v.priority page = .visible ↔ page < v.pageCount ∧ v.first ≤ page ∧ page ≤ v.last := by
  unfold priority
  by_cases inside : page < v.pageCount
  · rw [if_neg (UInt64.not_le.mpr inside), ← v.isVisible_iff inside]
    cases v.isVisible page <;> cases v.isNear page <;> simp [inside]
  · rw [if_pos (UInt64.not_lt.mp inside)]
    simp [inside]

/-- **The pages near the screen.** -/
theorem priority_eq_nearby_iff (v : Viewport) (page : Count) :
    v.priority page = .nearby ↔ page < v.pageCount ∧ ¬ (v.first ≤ page ∧ page ≤ v.last) ∧
      v.first.toNat ≤ page.toNat + v.margin.toNat ∧
      page.toNat ≤ v.last.toNat + v.margin.toNat := by
  unfold priority
  by_cases inside : page < v.pageCount
  · rw [if_neg (UInt64.not_le.mpr inside), ← v.isVisible_iff inside, ← v.isNear_iff]
    cases v.isVisible page <;> cases v.isNear page <;> simp [inside]
  · rw [if_pos (UInt64.not_lt.mp inside)]
    simp [inside]

section
variable {page pageCount : Count} (inside : page < pageCount) (margin : Count)

end

/-! ## Distances from the screen -/

/-- A page is at most so many pages from one that is on the screen. -/
def Within (v : Viewport) (pages : Nat) (page : Count) : Prop :=
  ∃ shown, v.first ≤ shown ∧ shown ≤ v.last ∧ ((page.toNat : Int) - shown.toNat).natAbs ≤ pages

theorem within_iff {v : Viewport} (order : v.first ≤ v.last) (pages : Nat) {page : Count}
    (hidden : ¬ (v.first ≤ page ∧ page ≤ v.last)) :
    v.Within pages page ↔
      v.first.toNat ≤ page.toNat + pages ∧ page.toNat ≤ v.last.toNat + pages := by
  rw [UInt64.le_iff_toNat_le] at order
  simp only [UInt64.le_iff_toNat_le] at hidden
  constructor
  · rintro ⟨shown, above, below, near⟩
    rw [UInt64.le_iff_toNat_le] at above below
    omega
  · rintro ⟨above, below⟩
    -- the nearest page on the screen is the end of it on the page's side
    by_cases before : page.toNat < v.first.toNat
    · refine ⟨v.first, UInt64.le_refl _, UInt64.le_iff_toNat_le.mpr order, ?_⟩
      omega
    · refine ⟨v.last, UInt64.le_iff_toNat_le.mpr order, UInt64.le_refl _, ?_⟩
      omega

theorem between_of_inside {a b pageCount : Count} (first : a < pageCount) (last : b < pageCount) :
    (between a b pageCount).first = min a b ∧ (between a b pageCount).last = max a b := by
  simp only [← UInt64.toNat_inj, UInt64.lt_iff_toNat_lt, between, UInt64.toNat_min,
    UInt64.toNat_max, Count.toNat_subFloored, UInt64.toNat_one] at first last ⊢
  omega

theorem between_comm (a b pageCount : Count) : between a b pageCount = between b a pageCount := by
  have least : min a b = min b a := by
    rw [← UInt64.toNat_inj, UInt64.toNat_min, UInt64.toNat_min, Nat.min_comm]
  have most : max a b = max b a := by
    rw [← UInt64.toNat_inj, UInt64.toNat_max, UInt64.toNat_max, Nat.max_comm]
  rw [between, between, least, most]

theorem priority_mono (v : Viewport) {margin margin' : Count} (wider : margin ≤ margin')
    (page : Count) :
    ((v.withMargin margin).priority page).rank ≤ ((v.withMargin margin').priority page).rank := by
  rw [UInt64.le_iff_toNat_le] at wider
  cases narrow : (v.withMargin margin).priority page with
  | thumbnail => exact Nat.zero_le _
  | nearby =>
    obtain ⟨inside, hidden, above, below⟩ := (priority_eq_nearby_iff _ _).mp narrow
    have near : (v.withMargin margin').priority page = .nearby :=
      (priority_eq_nearby_iff _ _).mpr ⟨inside, hidden,
        Nat.le_trans above (Nat.add_le_add_left wider _),
        Nat.le_trans below (Nat.add_le_add_left wider _)⟩
    rw [near]
  | visible =>
    have shown : (v.withMargin margin').priority page = .visible :=
      (priority_eq_visible_iff _ _).mpr
        ((priority_eq_visible_iff (v.withMargin margin) _).mp narrow)
    rw [shown]

/-- Being wanted in advance counts as much as being near. -/
theorem rank_priorityWith (v : Viewport) (wanted : List Count) (page : Count) :
    (v.priorityWith wanted page).rank = max (v.priority page).rank
      (if page < v.pageCount ∧ page ∈ wanted then Priority.nearby.rank else 0) := by
  unfold priorityWith
  by_cases raised : page < v.pageCount ∧ page ∈ wanted
  · cases v.priority page <;> simp [raised, Priority.rank]
  · cases v.priority page <;> simp [raised, Priority.rank]

/-- A page that is wanted in advance keeps its priority unless it is a thumbnail of the
document. -/
theorem priorityWith_eq (v : Viewport) (wanted : List Count) (page : Count) :
    v.priorityWith wanted page =
      if v.priority page = .thumbnail ∧ page < v.pageCount ∧ page ∈ wanted then .nearby
      else v.priority page := by
  unfold priorityWith
  cases v.priority page with
  | visible | nearby => simp
  | thumbnail => simp

/-- **The priorities are told by distances.** Whatever the range, the number of pages and
the margin: the order of the ends does not matter, and the range is moved into the
document, if it has pages and the range is not there already. On the screen are the pages
of the range; near are the other pages of the document at most a margin from one of them,
as integers; all others are thumbnails. With pages wanted in advance, the only difference
is that thumbnails of the document among them are near. So no priority is lower for them,
for more of them or for a wider margin, and outside the document none is higher. -/
theorem priorities_exact (a b pageCount margin page : Count) :
    let v := (between a b pageCount).withMargin margin
    let isShown := page < pageCount ∧ v.first ≤ page ∧ page ≤ v.last
    let isClose := page < pageCount ∧ ¬ (v.first ≤ page ∧ page ≤ v.last) ∧
      v.Within margin.toNat page
    between a b pageCount = between b a pageCount ∧
    (0 < pageCount → v.first ≤ v.last ∧ v.last < pageCount) ∧
    (a < pageCount → b < pageCount → v.first = min a b ∧ v.last = max a b) ∧
    (v.priority page = .visible ↔ isShown) ∧
    (v.priority page = .nearby ↔ isClose) ∧
    (v.priority page = .thumbnail ↔ ¬ isShown ∧ ¬ isClose) ∧
    ∀ wanted,
      (v.priority page).rank ≤ (v.priorityWith wanted page).rank ∧
      (v.priorityWith wanted page =
        if v.priority page = .thumbnail ∧ page < pageCount ∧ page ∈ wanted then .nearby
        else v.priority page) ∧
      (pageCount ≤ page → v.priorityWith wanted page = v.priority page) ∧
      (∀ wanted', wanted ⊆ wanted' →
        (v.priorityWith wanted page).rank ≤ (v.priorityWith wanted' page).rank) ∧
      ∀ margin', margin ≤ margin' → (v.priorityWith wanted page).rank
        ≤ ((v.withMargin margin').priorityWith wanted page).rank := by
  intro v isShown isClose
  have shown : v.priority page = .visible ↔ isShown := priority_eq_visible_iff v page
  have close : v.priority page = .nearby ↔ isClose := by
    rw [priority_eq_nearby_iff]
    refine and_congr_right fun inside => and_congr_right fun hidden => ?_
    have pages : 0 < pageCount :=
      UInt64.lt_of_le_of_lt (UInt64.le_iff_toNat_le.mpr (Nat.zero_le _)) inside
    exact (within_iff (between_inside a b pages).1 margin.toNat hidden).symm
  refine ⟨between_comm a b pageCount, between_inside a b, between_of_inside, shown, close, ?_,
    fun wanted => ?_⟩
  · rw [← shown, ← close]
    cases v.priority page <;> simp
  · refine ⟨?_, v.priorityWith_eq wanted page, ?_, ?_, ?_⟩
    · rw [rank_priorityWith]
      exact Nat.le_max_left _ _
    · intro outside
      rw [v.priorityWith_eq wanted page]
      exact if_neg fun ⟨_, inside, _⟩ => UInt64.not_lt.mpr outside inside
    · intro wanted' more
      rw [rank_priorityWith, rank_priorityWith]
      refine max_le_max (Nat.le_refl _) ?_
      by_cases raised : page < v.pageCount ∧ page ∈ wanted
      · rw [if_pos raised, if_pos ⟨raised.1, more raised.2⟩]
      · rw [if_neg raised]
        exact Nat.zero_le _
    · intro margin' wider
      rw [rank_priorityWith, rank_priorityWith]
      exact max_le_max (priority_mono v wider page) (Nat.le_refl _)

/-- **Not vacuous**: the screen shows the last three pages of the longest document, given by
ends beyond it in the wrong order. With the widest margin the first page is near, although
the margin behind the screen does not fit; with one page less than the way to it, it is a
thumbnail, until it is wanted. A page outside the document stays one. -/
theorem priorities_exact_ends :
    let v := between Count.largest (Count.largest - 3) Count.largest
    let short := Count.largest - 4
    (v.withMargin Count.largest).priority 0 = .nearby ∧
    (v.withMargin short).priority 0 = .thumbnail ∧
    (v.withMargin short).priorityWith [0, Count.largest] 0 = .nearby ∧
    (v.withMargin short).priorityWith [0, Count.largest] Count.largest = .thumbnail := by
  intro v short
  obtain ⟨_, _, _, _, near, _, _⟩ :=
    priorities_exact Count.largest (Count.largest - 3) Count.largest Count.largest 0
  obtain ⟨_, _, _, _, _, far, raised⟩ :=
    priorities_exact Count.largest (Count.largest - 3) Count.largest short 0
  obtain ⟨_, _, _, _, _, _, outside⟩ :=
    priorities_exact Count.largest (Count.largest - 3) Count.largest short Count.largest
  have beyond : ¬ (v.withMargin short).Within short.toNat 0 := by
    rintro ⟨shown, above, _, close⟩
    have above : 18446744073709551612 ≤ shown.toNat := UInt64.le_iff_toNat_le.mp above
    have close : ((0 : Int) - shown.toNat).natAbs ≤ 18446744073709551611 := close
    omega
  have thumbnail := far.mpr ⟨by decide, fun ⟨_, _, close⟩ => beyond close⟩
  refine ⟨near.mpr ⟨by decide, by decide, Count.largest - 3, by decide, by decide, by decide⟩,
    thumbnail, ?_, ?_⟩
  · exact (raised _).2.1.trans (if_pos ⟨thumbnail, by decide, by decide⟩)
  · exact ((outside _).2.2.1 (UInt64.le_refl _)).trans (by decide)

end ReadAhead.Viewport
