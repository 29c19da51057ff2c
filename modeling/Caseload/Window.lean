import Caseload.Error

/-!
# Page windows

A window shows a page of a list: it skips `offset` items and shows `limit` of those that follow.
Both are words of 64 bits, and moving a window stops at the ends of that range.
-/

namespace Caseload

def maxWord : Nat :=
  0xFFFFFFFFFFFFFFFF

/-- The largest signed number of 64 bits. -/
def maxSigned : Nat :=
  0x7FFFFFFFFFFFFFFF

/-- A page of a list. -/
structure Window where
  /-- How many items come before the page. -/
  offset : Nat
  /-- How many items the page has room for. -/
  limit : Nat
  offset_le : offset ≤ maxWord
  limit_le : limit ≤ maxWord
  limit_pos : 0 < limit
  deriving DecidableEq

namespace Window

/-- The window for a requested offset and limit: the offset must not be negative and the page
must have room. -/
def ofRequest (offset limit : Int64) : Except Error Window :=
  if offset.toInt < 0 then
    .error (.negativeOffset offset)
  else if h : limit.toInt < 1 then
    .error (.limitBelowOne limit)
  else
    .ok {
      offset := offset.toInt.toNat
      limit := limit.toInt.toNat
      offset_le := by have := offset.toInt_lt; simp only [maxWord]; omega
      limit_le := by have := limit.toInt_lt; simp only [maxWord]; omega
      limit_pos := by omega }

/-- The window that shows the first item only. -/
def single : Window where
  offset := 0
  limit := 1
  offset_le := by decide
  limit_le := by decide
  limit_pos := by decide

/-- Which page the window shows, from 0. -/
def pageNumber (w : Window) : Nat :=
  w.offset / w.limit

def hasPrevious (w : Window) : Bool :=
  0 < w.offset

def nextOffset (w : Window) : Nat :=
  min (w.offset + w.limit) maxWord

/-- Whether anything follows the page in a list of `total` items. -/
def hasNext (w : Window) (total : Nat) : Bool :=
  w.nextOffset < total

def next (w : Window) : Window :=
  { w with offset := w.nextOffset, offset_le := Nat.min_le_right _ _ }

/-- The window before this one, which never begins before the list. -/
def previous (w : Window) : Window :=
  { w with
    offset := w.offset - w.limit
    offset_le := Nat.le_trans (Nat.sub_le _ _) w.offset_le }

/-- The window at the beginning of the list. -/
def first (w : Window) : Window :=
  { w with offset := 0, offset_le := Nat.zero_le _ }

def cut {α : Type} (w : Window) (items : List α) : List α :=
  (items.drop w.offset).take w.limit

end Window

end Caseload
