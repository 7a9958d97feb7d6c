import Observable.Operation

/-!
# Names and handles

A registry maps names to handles. A handle says both which thing it denotes and how: a property and
a view of it share the object's number, and a weak handle has the number without keeping the object
alive. The partial functions on `Handle` say which handles an operation accepts.
-/

namespace Observable

/-- What a name can denote. -/
inductive Handle where
  | property (i : Id)
  | binding (i : Id)
  /-- A view of a property. -/
  | view (i : Id)
  /-- A listener set that belongs to no observable. -/
  | set (i : Id)
  /-- A listener set, not kept alive. -/
  | weak (i : Id)
  | listener (l : ListenerId)
  /-- The receiving end of a channel. -/
  | receiver (l : ListenerId)
  deriving DecidableEq, Repr

namespace Handle

/-- The object that the handle keeps alive. -/
def held? : Handle → Option Id
  | .property i | .binding i | .view i | .set i => some i
  | _ => none

/-- A property that can be written and bound. -/
def property? : Handle → Option Id
  | .property i => some i
  | _ => none

/-- A property, perhaps only readable. -/
def readable? : Handle → Option Id
  | .property i | .view i => some i
  | _ => none

/-- Something with a value. -/
def observable? : Handle → Option Id
  | .property i | .binding i | .view i => some i
  | _ => none

/-- Something with listeners. -/
def listened? : Handle → Option Id := held?

/-- A listener set that belongs to no observable. -/
def set? : Handle → Option Id
  | .set i => some i
  | _ => none

/-- Something with a number of its own, alive or not. -/
def numbered? : Handle → Option Id
  | .property i | .binding i | .view i | .set i | .weak i => some i
  | _ => none

def listener? : Handle → Option ListenerId
  | .listener l => some l
  | _ => none

def receiver? : Handle → Option ListenerId
  | .receiver l => some l
  | _ => none

end Handle

/-- The names in use, each with one handle. -/
structure Registry where
  entries : List (String × Handle) := []
  names_nodup : (entries.map (·.1)).Nodup := by simp

namespace Registry

/-- The handle of a name. -/
def find? (r : Registry) (n : String) : Option Handle := r.entries.lookup n

/-- Takes a name out of use. -/
def erase (r : Registry) (n : String) : Registry where
  entries := r.entries.filter fun e => e.1 != n
  names_nodup := (List.filter_sublist.map _).nodup r.names_nodup

/-- Gives a name a handle, in place of the one it may have had. -/
def insert (r : Registry) (n : String) (h : Handle) : Registry where
  entries := (n, h) :: (r.erase n).entries
  names_nodup := by
    rw [List.map_cons, List.nodup_cons]
    refine ⟨?_, (r.erase n).names_nodup⟩
    simp [erase]

/-- Some handle in the registry keeps the object alive. -/
def holds (r : Registry) (i : Id) : Bool := r.entries.any fun e => e.2.held? == some i

theorem lookup_filter_ne (l : List (String × Handle)) (n m : String) :
    (l.filter fun e => e.1 != n).lookup m = if m = n then none else l.lookup m := by
  induction l with
  | nil => simp
  | cons e l ih =>
    obtain ⟨x, h⟩ := e
    by_cases hm : m = x
    · subst hm
      by_cases hx : m = n
      · subst hx
        simpa using ih
      · simp [hx]
    · have hmx : (m == x) = false := by simpa using hm
      by_cases hx : x = n
      · subst hx
        simpa [List.lookup_cons, hm, hmx] using ih
      · simpa [List.lookup_cons, hx, hmx] using ih

theorem find?_erase (r : Registry) (n m : String) :
    (r.erase n).find? m = if m = n then none else r.find? m :=
  lookup_filter_ne r.entries n m

theorem find?_insert (r : Registry) (n m : String) (h : Handle) :
    (r.insert n h).find? m = if m = n then some h else r.find? m := by
  by_cases hm : m = n
  · subst hm
    simp [insert, find?]
  · have hmn : (m == n) = false := by simpa using hm
    have herase := find?_erase r n m
    simpa [insert, find?, List.lookup_cons, hmn, hm] using herase

theorem mem_entries_iff (r : Registry) (n : String) (h : Handle) :
    (n, h) ∈ r.entries ↔ r.find? n = some h := by
  obtain ⟨l, hl⟩ := r
  show (n, h) ∈ l ↔ l.lookup n = some h
  induction l with
  | nil => simp
  | cons e l ih =>
    obtain ⟨x, g⟩ := e
    rw [List.map_cons, List.nodup_cons] at hl
    by_cases hn : n = x
    · subst hn
      have hfresh : (n, h) ∉ l := fun hmem => hl.1 (List.mem_map.2 ⟨_, hmem, rfl⟩)
      simp [hfresh, eq_comm]
    · have hnx : (n == x) = false := by simpa using hn
      simpa [List.lookup_cons, hn, hnx] using ih hl.2

/-- An object is held by the registry exactly if some name denotes a handle that holds it. -/
theorem holds_iff (r : Registry) (i : Id) :
    r.holds i = true ↔ ∃ n h, r.find? n = some h ∧ h.held? = some i := by
  simp [holds, ← mem_entries_iff]

end Registry

end Observable
