import Mathlib.Algebra.Order.Field.Basic
import Mathlib.Tactic.Linarith
import Mathlib.Tactic.Ring

/-!
# Rows of items

Items of one length stand in a row at equal distances from each other.  A window of
some width looks at the row.  The offset of an item is the offset of the window with
the item in its middle.

A point between the first and the last middle is within half a pitch of some middle
(`exists_near`), so a window that is wider than the gaps meets an item there.  An
offset one pitch beyond that of an item is the offset of another item, or else it is
out of the range of offsets and is clamped to that of the item itself
(`exists_clamp_eq`).
-/

namespace Library

def half {F : Type} [Field F] (x : F) : F := x / 2

/-- Items of one length, with gaps of one width between them. -/
structure Row (F : Type) [Zero F] [Preorder F] where
  length : F
  spacing : F
  count : Nat
  length_pos : 0 < length
  spacing_nonneg : 0 ≤ spacing

namespace Row

variable {F : Type} [Field F] [LinearOrder F] [IsStrictOrderedRing F] (row : Row F)

def pitch : F := row.length + row.spacing

def start (i : Nat) : F := i * row.pitch

def center (i : Nat) : F := row.start i + half row.length

/-- The item is at the point. -/
def Covers (i : Nat) (x : F) : Prop := row.start i ≤ x ∧ x < row.start i + row.length

/-- The item and the window between the points overlap. -/
def Meets (i : Nat) (left right : F) : Prop :=
  row.start i < right ∧ left < row.start i + row.length

/-- The offset at which a window of the width has the item in its middle. -/
def offset (width : F) (i : Nat) : F := row.center i - half width

/-- The offset in the range of the offsets that is nearest to the given one. -/
def clamp (width x : F) : F :=
  max (row.offset width 0) (min (row.offset width (row.count - 1)) x)

theorem pitch_pos : 0 < row.pitch := add_pos_of_pos_of_nonneg row.length_pos row.spacing_nonneg

theorem length_le_pitch : row.length ≤ row.pitch :=
  le_add_of_nonneg_right row.spacing_nonneg

omit [IsStrictOrderedRing F] in
theorem start_succ (i : Nat) : row.start (i + 1) = row.start i + row.pitch := by
  rw [start, start, Nat.cast_succ]
  ring

omit [IsStrictOrderedRing F] in
theorem center_succ (i : Nat) : row.center (i + 1) = row.center i + row.pitch := by
  rw [center, center, start_succ]
  ring

omit [IsStrictOrderedRing F] in
theorem offset_succ (width : F) (i : Nat) :
    row.offset width (i + 1) = row.offset width i + row.pitch := by
  rw [offset, offset, center_succ]
  ring

theorem offset_mono (width : F) {i j : Nat} (h : i ≤ j) :
    row.offset width i ≤ row.offset width j := by
  have hstart : row.start i ≤ row.start j :=
    mul_le_mul_of_nonneg_right (Nat.cast_le.mpr h) row.pitch_pos.le
  rw [offset, offset, center, center]
  linarith

theorem offset_add_half (width : F) (i : Nat) : row.offset width i + width / 2 = row.center i := by
  rw [offset, half]
  ring

omit [IsStrictOrderedRing F] in
theorem offset_zero (width : F) : row.offset width 0 = -((width - row.length) / 2) := by
  rw [offset, center, start, half, half, Nat.cast_zero]
  ring

theorem covers_center (i : Nat) : row.Covers i (row.center i) := by
  have hlength := row.length_pos
  constructor <;> rw [center, half] <;> linarith

/-- Different items are a pitch apart or more. -/
theorem pitch_le_of_lt {i j : Nat} (h : i < j) : row.start i + row.pitch ≤ row.start j := by
  rw [← start_succ]
  exact mul_le_mul_of_nonneg_right (Nat.cast_le.mpr h) row.pitch_pos.le

/-- A point in the range of the middles has a middle within half a pitch.  The
induction is on the last item: a point beyond all middles but the last is between
that and the one before it. -/
theorem exists_near (last : Nat) (x : F) (hfirst : row.center 0 ≤ x)
    (hlast : x ≤ row.center last) : ∃ i ≤ last, |row.center i - x| ≤ row.pitch / 2 := by
  have hpitch := row.pitch_pos
  induction last with
  | zero =>
    refine ⟨0, Nat.le_refl 0, ?_⟩
    rw [le_antisymm hlast hfirst, sub_self, abs_zero]
    linarith
  | succ last ih =>
    rcases le_or_gt x (row.center last) with hbefore | hbeyond
    · obtain ⟨i, hi, hnear⟩ := ih hbefore
      exact ⟨i, Nat.le_succ_of_le hi, hnear⟩
    · have hnext := row.center_succ last
      rcases le_or_gt (x - row.center last) (row.pitch / 2) with hhalf | hhalf
      · refine ⟨last, Nat.le_succ last, ?_⟩
        rw [abs_le]
        constructor <;> linarith
      · refine ⟨last + 1, Nat.le_refl _, ?_⟩
        rw [abs_le]
        constructor <;> linarith

variable {row}

theorem Covers.unique {i j : Nat} {x : F} (hi : row.Covers i x) (hj : row.Covers j x) : i = j := by
  have hlength := row.length_le_pitch
  rcases Nat.lt_trichotomy i j with h | h | h
  · have := row.pitch_le_of_lt h
    linarith [hi.2, hj.1]
  · exact h
  · have := row.pitch_le_of_lt h
    linarith [hj.2, hi.1]

/-- A point that another item covers is half an item and a gap away from a middle. -/
theorem Covers.far {i j : Nat} {x : F} (h : row.Covers i x) (hne : i ≠ j) :
    row.length / 2 + row.spacing ≤ |row.center j - x| := by
  obtain ⟨hleft, hright⟩ := h
  rw [le_abs, center, half]
  rcases Nat.lt_or_gt_of_ne hne with hlt | hlt
  · left
    have hpitch := row.pitch_le_of_lt hlt
    rw [pitch] at hpitch
    linarith
  · right
    have hpitch := row.pitch_le_of_lt hlt
    rw [pitch] at hpitch
    linarith

theorem meets_iff {i : Nat} {x width : F} :
    row.Meets i (x - width / 2) (x + width / 2) ↔
      |row.center i - x| < (width + row.length) / 2 := by
  rw [Meets, abs_lt, center, half]
  constructor
  · rintro ⟨hright, hleft⟩
    constructor <;> linarith
  · rintro ⟨hleft, hright⟩
    constructor <;> linarith

omit [IsStrictOrderedRing F] in
theorem clamp_of_le {width x : F} (h : x ≤ row.offset width 0) :
    row.clamp width x = row.offset width 0 :=
  max_eq_left ((min_le_right _ _).trans h)

theorem clamp_of_ge {width x : F} (h : row.offset width (row.count - 1) ≤ x) :
    row.clamp width x = row.offset width (row.count - 1) := by
  rw [clamp, min_eq_left h, max_eq_right (row.offset_mono width (Nat.zero_le _))]

omit [IsStrictOrderedRing F] in
theorem clamp_of_mem {width x : F} (hfirst : row.offset width 0 ≤ x)
    (hlast : x ≤ row.offset width (row.count - 1)) : row.clamp width x = x := by
  rw [clamp, min_eq_right hlast, max_eq_right hfirst]

theorem clamp_offset {width : F} {i : Nat} (h : i < row.count) :
    row.clamp width (row.offset width i) = row.offset width i :=
  clamp_of_mem (row.offset_mono width (Nat.zero_le i))
    (row.offset_mono width (Nat.le_sub_one_of_lt h))

/-- The offset of an item, or one a pitch before or behind it, is clamped to the offset
of an item. -/
theorem exists_clamp_eq {width x : F} {i : Nat} (hi : i < row.count)
    (hx : x = row.offset width i ∨ x = row.offset width i + row.pitch ∨
      x = row.offset width i - row.pitch) :
    ∃ j < row.count, row.clamp width x = row.offset width j := by
  have hpitch := row.pitch_pos
  rcases hx with rfl | rfl | rfl
  · exact ⟨i, hi, clamp_offset hi⟩
  · rw [← offset_succ]
    by_cases hnext : i + 1 < row.count
    · exact ⟨i + 1, hnext, clamp_offset hnext⟩
    · refine ⟨row.count - 1, by omega, clamp_of_ge ?_⟩
      exact row.offset_mono width (by omega)
  · cases i with
    | zero => exact ⟨0, hi, clamp_of_le (by linarith)⟩
    | succ i =>
      refine ⟨i, Nat.lt_of_succ_lt hi, ?_⟩
      rw [offset_succ, add_sub_cancel_right]
      exact clamp_offset (Nat.lt_of_succ_lt hi)

end Row
end Library
