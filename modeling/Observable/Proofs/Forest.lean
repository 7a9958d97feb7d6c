import Mathlib.Data.List.Perm.Subperm
import Observable.Propagation
import Observable.Proofs.Links

/-!
# Sources form a forest above free objects

Every object has at most one source, so the way from an object up to one without a source is unique
(`World.IsLine.unique`), and it meets no object twice. Properties may be bound in a circle, but then
none of them is free, and no free object leads into the circle. Below a free object changes are
therefore passed on along a tree, and no path there is longer than the number of objects
(`World.Linked.acc_of_free`).
-/

namespace Observable

variable {V : Type}

namespace World

/-- Objects of which each has the next one as its source, up to one that has none. -/
def IsLine (w : World V) : List Id → Prop
  | [] => True
  | [i] => w.relation? i = none
  | i :: j :: rest => (∃ r, w.relation? i = some (j, r)) ∧ w.IsLine (j :: rest)

theorem IsLine.tail {w : World V} {i : Id} {l : List Id} (hl : w.IsLine (i :: l)) :
    w.IsLine l := by
  cases l with
  | nil => trivial
  | cons j rest => exact hl.2

theorem IsLine.of_append {w : World V} {l m : List Id} (hl : w.IsLine (l ++ m)) : w.IsLine m := by
  induction l with
  | nil => exact hl
  | cons i l ih => exact ih hl.tail

theorem IsLine.congr {w w' : World V} {l : List Id} (hl : w.IsLine l)
    (hrelation : ∀ i, w'.relation? i = w.relation? i) : w'.IsLine l := by
  induction l with
  | nil => trivial
  | cons i l ih =>
    cases l with
    | nil => exact (hrelation i).trans hl
    | cons j l =>
      obtain ⟨⟨r, hr⟩, hrest⟩ := hl
      exact ⟨⟨r, (hrelation i).trans hr⟩, ih hrest⟩

/-- There is one way up from an object. -/
theorem IsLine.unique {w : World V} {i : Id} {l m : List Id} (hl : w.IsLine (i :: l))
    (hm : w.IsLine (i :: m)) : l = m := by
  induction l generalizing i m with
  | nil =>
    cases m with
    | nil => rfl
    | cons j m =>
      obtain ⟨r, hr⟩ := hm.1
      have hnone : w.relation? i = none := hl
      rw [hnone] at hr
      cases hr
  | cons j l ih =>
    obtain ⟨r, hr⟩ := hl.1
    cases m with
    | nil =>
      have hnone : w.relation? i = none := hm
      rw [hnone] at hr
      cases hr
    | cons k m =>
      obtain ⟨s, hs⟩ := hm.1
      rw [hs] at hr
      cases hr
      rw [ih hl.2 hm.2]

/-- A line does not come back to where it began. -/
theorem IsLine.not_mem {w : World V} {i : Id} {l : List Id} (hl : w.IsLine (i :: l)) :
    i ∉ l := by
  intro hmem
  obtain ⟨a, b, hsplit⟩ := List.append_of_mem hmem
  have hagain : w.IsLine (i :: b) := by
    rw [hsplit] at hl
    exact hl.tail.of_append
  -- The way up from the second occurrence is the whole way up, but it is shorter.
  have hlength := congrArg List.length (hl.unique hagain)
  rw [hsplit, List.length_append, List.length_cons] at hlength
  omega

/-- A source is not what it is the source of. -/
theorem IsLine.source_ne {w : World V} {i u : Id} {l : List Id} {r : Registration}
    (hl : w.IsLine (i :: l)) (hrelation : w.relation? i = some (u, r)) : u ≠ i := by
  cases l with
  | nil =>
    have hnone : w.relation? i = none := hl
    rw [hnone] at hrelation
    cases hrelation
  | cons j l =>
    obtain ⟨s, hs⟩ := hl.1
    rw [hs] at hrelation
    cases hrelation
    rintro rfl
    exact hl.not_mem List.mem_cons_self

/-- The source of an object of a line comes further on. -/
theorem IsLine.source_mem {w : World V} {i t u : Id} {l : List Id} {r : Registration}
    (hl : w.IsLine (i :: l)) (ht : t ∈ i :: l) (hrelation : w.relation? t = some (u, r)) :
    u ∈ l := by
  induction l generalizing i with
  | nil =>
    rw [List.mem_singleton.1 ht] at hrelation
    have hnone : w.relation? i = none := hl
    rw [hnone] at hrelation
    cases hrelation
  | cons j l ih =>
    rcases List.mem_cons.1 ht with rfl | ht
    · obtain ⟨s, hs⟩ := hl.1
      rw [hs] at hrelation
      cases hrelation
      exact List.mem_cons_self
    · exact List.mem_cons_of_mem _ (ih hl.2 ht)

/-- The source of the first object of a line stands second, and is the source of no other one. -/
theorem IsLine.source_ne_of_mem {w : World V} {i x u : Id} {l : List Id} {r s : Registration}
    (hl : w.IsLine (i :: l)) (hi : w.relation? i = some (u, r)) (hx : x ∈ l) :
    w.relation? x ≠ some (u, s) := by
  intro hrelation
  cases l with
  | nil => cases hx
  | cons j l =>
    obtain ⟨q, hq⟩ := hl.1
    rw [hq] at hi
    cases hi
    exact hl.2.not_mem (hl.2.source_mem hx hrelation)

/-- No two objects of a line have the same source. -/
theorem IsLine.eq_of_source {w : World V} {x y u : Id} {l : List Id} {r s : Registration}
    (hl : w.IsLine l) (hx : x ∈ l) (hy : y ∈ l) (hxu : w.relation? x = some (u, r))
    (hyu : w.relation? y = some (u, s)) : x = y := by
  induction l with
  | nil => cases hx
  | cons i l ih =>
    rcases List.mem_cons.1 hx with hxi | hx
    · rcases List.mem_cons.1 hy with hyi | hy
      · rw [hxi, hyi]
      · rw [hxi] at hxu
        exact absurd hyu (hl.source_ne_of_mem hxu hy)
    · rcases List.mem_cons.1 hy with hyi | hy
      · rw [hyi] at hyu
        exact absurd hxu (hl.source_ne_of_mem hyu hx)
      · exact ih hl.tail hx hy

/-- A write to the first object of a line changes no other value along it. -/
theorem IsLine.value?_store {w : World V} {i : Id} {l : List Id} (hl : w.IsLine (i :: l)) (v : V)
    {j : Id} (hj : j ∈ l) : (w.store i v).value? j = w.value? j := by
  rw [World.value?_store, if_neg]
  rintro rfl
  exact hl.not_mem hj

theorem IsLine.nodup {w : World V} {l : List Id} (hl : w.IsLine l) : l.Nodup := by
  induction l with
  | nil => exact List.nodup_nil
  | cons i l ih => exact List.nodup_cons.2 ⟨hl.not_mem, ih hl.tail⟩

/-- A line has no more objects than there are. -/
theorem IsLine.length_le {w : World V} {l : List Id} (hl : w.IsLine l)
    (hlt : ∀ i ∈ l, i < w.objects.size) : l.length ≤ w.objects.size := by
  have hsubset : l ⊆ List.range w.objects.size := by
    intro i hi
    exact List.mem_range.2 (hlt i hi)
  have hlength := (hl.nodup.subperm hsubset).length_le
  rw [List.length_range] at hlength
  exact hlength

/-- What is fed by the end of a line continues it. -/
theorem IsLine.cons_of_feeds {w : World V} (hw : w.Linked) {i j : Id} {l : List Id}
    (hl : w.IsLine (i :: l)) (hfeeds : Feeds w.registrations j i) : w.IsLine (j :: i :: l) := by
  obtain ⟨r, hr, ht⟩ := hfeeds
  exact ⟨⟨r, hw.relation?_of_mem hr ht⟩, hl⟩

/-- Below the end of a line every path ends. -/
theorem Linked.acc_of_line {w : World V} (hw : w.Linked) (n : Nat) {i : Id} {l : List Id}
    (hl : w.IsLine (i :: l)) (hlt : ∀ j ∈ i :: l, j < w.objects.size)
    (hbound : w.objects.size < (i :: l).length + n) : Acc (Feeds w.registrations) i := by
  -- The induction is on how many objects the line lacks.
  induction n generalizing i l with
  | zero =>
    have hle := hl.length_le hlt
    omega
  | succ n ih =>
    constructor
    intro j hfeeds
    have hline := hl.cons_of_feeds hw hfeeds
    apply ih hline
    · intro k hk
      rcases List.mem_cons.1 hk with rfl | hk
      · obtain ⟨r, hr⟩ := hline.1
        exact lt_size_of_alive (alive_of_relation? hr)
      · exact hlt k hk
    · rw [List.length_cons]
      omega

/-- Below a free object every path along the registrations ends. -/
theorem Linked.acc_of_free {w : World V} (hw : w.Linked) {i : Id} (halive : w.alive i = true)
    (hfree : w.relation? i = none) : Acc (Feeds w.registrations) i := by
  have hline : w.IsLine [i] := hfree
  apply hw.acc_of_line w.objects.size hline
  · intro j hj
    rw [List.mem_singleton.1 hj]
    exact lt_size_of_alive halive
  · rw [List.length_singleton]
    omega

end World

end Observable
