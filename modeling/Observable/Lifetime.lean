import Observable.World

/-!
# Lifetimes

An object lives while a handle in the registry or an operation in progress holds it. Holds end in
two ways: a name stops denoting the object (`assign`, `forget`), or a holder that worked on it is
done. Each ends with `release`, which buries the object if nobody holds it any more. A buried object
takes its own registration out of its source's list; nothing else changes, because no object holds
another.

The holds of operations in progress are given as a list of numbers, `held`.
-/

namespace Observable

namespace World

variable {V : Type}

/-- Ends the life of an object. -/
def bury (w : World V) (i : Id) : World V :=
  match w.object? i with
  | none => w
  | some o =>
    let rest : World V := { w with objects := w.objects.erase i }
    match o.body.relation? i with
    | none => rest
    | some (source, r) => rest.unregister source r

/-- Ends one hold on an object. -/
def release (w : World V) (held : List Id) (i : Id) : World V :=
  if w.names.holds i || held.contains i then w else w.bury i

/-- Ends the hold that a former handle had. -/
def discard (w : World V) (held : List Id) (h : Option Handle) : World V :=
  match h.bind Handle.held? with
  | none => w
  | some i => w.release held i

/-- Takes a name out of use. -/
def forget (w : World V) (held : List Id) (name : String) : World V :=
  let former := w.names.find? name
  { w with names := w.names.erase name }.discard held former

/-- Gives a name a handle; the handle it had before is dropped. -/
def assign (w : World V) (held : List Id) (name : String) (h : Handle) : World V :=
  let former := w.names.find? name
  { w with names := w.names.insert name h }.discard held former

theorem bury_of_dead {w : World V} {i : Id} (hdead : w.object? i = none) : w.bury i = w := by
  simp [bury, hdead]

theorem object?_bury_self (w : World V) (i : Id) : (w.bury i).object? i = none := by
  unfold bury
  cases ho : w.object? i with
  | none => simpa using ho
  | some o =>
    simp only
    split
    · simp [object?]
    · rw [unregister, object?_alter]
      simp [object?]

@[simp] theorem names_bury (w : World V) (i : Id) : (w.bury i).names = w.names := by
  unfold bury
  cases w.object? i with
  | none => rfl
  | some o => simp only; split <;> rfl

@[simp] theorem names_release (w : World V) (held : List Id) (i : Id) :
    (w.release held i).names = w.names := by
  unfold release
  split <;> simp

@[simp] theorem names_discard (w : World V) (held : List Id) (h : Option Handle) :
    (w.discard held h).names = w.names := by
  unfold discard
  split <;> simp

@[simp] theorem names_forget (w : World V) (held : List Id) (name : String) :
    (w.forget held name).names = w.names.erase name := by
  simp [forget]

@[simp] theorem names_assign (w : World V) (held : List Id) (name : String) (h : Handle) :
    (w.assign held name h).names = w.names.insert name h := by
  simp [assign]

end World

end Observable
