/-!
# Numbered tables

A table gives its entries the numbers `0, 1, 2, …` in the order they come. An entry can be changed
or removed later; its number is never given again.

Main statements: `get?` after each operation, and extensionality (`Table.ext_get?`): a table is its
size and what `get?` finds.
-/

namespace Observable

/-- Entries by number; `none` marks a removed one. -/
structure Table (α : Type) where
  cells : List (Option α) := []

namespace Table

variable {α : Type}

/-- How many numbers have been given so far, which is also the next number. -/
def size (t : Table α) : Nat := t.cells.length

/-- The entry of a number, if it is there. -/
def get? (t : Table α) (i : Nat) : Option α := (t.cells[i]?).join

/-- Gives the next number to an entry. -/
def push (t : Table α) (a : α) : Table α := ⟨t.cells ++ [some a]⟩

/-- Changes the entry of a number, if it is there. -/
def modify (t : Table α) (i : Nat) (f : α → α) : Table α := ⟨t.cells.modify i (Option.map f)⟩

/-- Removes the entry of a number, if it is there. -/
def erase (t : Table α) (i : Nat) : Table α := ⟨t.cells.set i none⟩

@[simp] theorem size_push (t : Table α) (a : α) : (t.push a).size = t.size + 1 := by
  simp [size, push]

@[simp] theorem size_modify (t : Table α) (i : Nat) (f : α → α) :
    (t.modify i f).size = t.size := by
  simp [size, modify]

@[simp] theorem size_erase (t : Table α) (i : Nat) : (t.erase i).size = t.size := by
  simp [size, erase]

theorem get?_eq_none_of_size_le {t : Table α} {i : Nat} (h : t.size ≤ i) : t.get? i = none := by
  simp [get?, List.getElem?_eq_none_iff.2 h]

theorem lt_size_of_get? {t : Table α} {i : Nat} {a : α} (h : t.get? i = some a) : i < t.size := by
  apply Nat.lt_of_not_le
  intro hle
  simp [get?_eq_none_of_size_le hle] at h

theorem get?_push (t : Table α) (a : α) (i : Nat) :
    (t.push a).get? i = if i = t.size then some a else t.get? i := by
  unfold get? push size
  rw [List.getElem?_append]
  by_cases hlt : i < t.cells.length
  · simp [hlt, Nat.ne_of_lt hlt]
  · by_cases heq : i = t.cells.length
    · simp [heq]
    · have hgt : i - t.cells.length ≠ 0 := by omega
      simp [hlt, heq, hgt]

@[simp] theorem get?_push_self (t : Table α) (a : α) : (t.push a).get? t.size = some a := by
  simp [get?_push]

theorem get?_modify (t : Table α) (i j : Nat) (f : α → α) :
    (t.modify i f).get? j = if i = j then (t.get? j).map f else t.get? j := by
  unfold get? modify
  rw [List.getElem?_modify]
  by_cases h : i = j
  · subst h
    cases t.cells[i]? with
    | none => simp
    | some c => cases c <;> simp
  · simp [h]

@[simp] theorem get?_modify_self (t : Table α) (i : Nat) (f : α → α) :
    (t.modify i f).get? i = (t.get? i).map f := by
  simp [get?_modify]

theorem get?_modify_of_ne (t : Table α) {i j : Nat} (f : α → α) (h : i ≠ j) :
    (t.modify i f).get? j = t.get? j := by
  simp [get?_modify, h]

theorem get?_erase (t : Table α) (i j : Nat) :
    (t.erase i).get? j = if i = j then none else t.get? j := by
  unfold get? erase
  rw [List.getElem?_set]
  by_cases h : i = j
  · subst h
    by_cases hlt : i < t.cells.length <;> simp [hlt]
  · simp [h]

@[simp] theorem get?_erase_self (t : Table α) (i : Nat) : (t.erase i).get? i = none := by
  simp [get?_erase]

theorem get?_erase_of_ne (t : Table α) {i j : Nat} (h : i ≠ j) :
    (t.erase i).get? j = t.get? j := by
  simp [get?_erase, h]

theorem ext_get? {t u : Table α} (hsize : t.size = u.size) (hget : ∀ i, t.get? i = u.get? i) :
    t = u := by
  cases t with
  | mk a =>
    cases u with
    | mk b =>
      congr 1
      apply List.ext_getElem hsize
      intro i ha hb
      have h := hget i
      simpa [get?, List.getElem?_eq_getElem ha, List.getElem?_eq_getElem hb] using h

/-- What an entry is changed to depends on that entry only. -/
theorem modify_of_get? {t : Table α} {i : Nat} {a : α} (ha : t.get? i = some a) (f : α → α) :
    t.modify i f = t.modify i fun _ => f a := by
  apply ext_get?
  · simp
  · intro j
    rw [get?_modify, get?_modify]
    by_cases hij : i = j
    · subst hij
      simp [ha]
    · simp [hij]

end Table

end Observable
