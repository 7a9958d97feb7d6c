import Observable.Table
import Observable.Registry

/-!
# Objects, listeners and the world

The world holds every live object (properties, bindings and free-standing listener sets), every
listener ever made, and the names in use. An object keeps its registrations in the order in which
they were added. A registration is either a listener or one half of a relation between two objects:
a bound property and a binding are each registered with their source.

The module supplies the reads and the one-object writes; it does not say which operation may
perform them.
-/

namespace Observable

/-! ## Objects -/

/-- What is told of a change. -/
inductive Registration where
  | listener (l : ListenerId)
  /-- A property that follows the changes. -/
  | bound (property : Id)
  /-- A binding that converts the new values. -/
  | derived (binding : Id)
  deriving DecidableEq, Repr

/-- The object that a registration would write. -/
def Registration.target? : Registration → Option Id
  | .listener _ => none
  | .bound i | .derived i => some i

/-- A validated value that is written directly, or follows the observable it is bound to. -/
structure Property (V : Type) where
  value : V
  validate : V → Script V .validator
  report : Option (Error → Script V .reporter)
  source : Option Id

/-- A value that is always converted from the value of its source. -/
structure Binding (V : Type) where
  value : V
  convert : V → Script V .converter
  source : Id

/-- What an object is, apart from its registrations. -/
inductive Body (V : Type) where
  | property (p : Property V)
  | binding (b : Binding V)
  /-- A listener set that belongs to no observable. -/
  | bare

/-- An object and its registrations, oldest first. -/
structure Object (V : Type) where
  body : Body V
  registrations : List Registration := []

namespace Body

variable {V : Type}

def property? : Body V → Option (Property V)
  | .property p => some p
  | _ => none

def binding? : Body V → Option (Binding V)
  | .binding b => some b
  | _ => none

def value? : Body V → Option V
  | .property p => some p.value
  | .binding b => some b.value
  | .bare => none

/-- Replaces the value. -/
def store (v : V) : Body V → Body V
  | .property p => .property { p with value := v }
  | .binding b => .binding { b with value := v }
  | .bare => .bare

/-- Replaces what a property is bound to. -/
def follow (source : Option Id) : Body V → Body V
  | .property p => .property { p with source := source }
  | body => body

/-- Where the object with this body and number is registered, and as what. -/
def relation? (i : Id) : Body V → Option (Id × Registration)
  | .property p => p.source.map (·, .bound i)
  | .binding b => some (b.source, .derived i)
  | .bare => none

end Body

/-! ## Listeners -/

/-- A listener: a callback with the number of its calls so far, or the sending end of a channel with
every change it was sent, oldest first, and how many of them were taken. -/
inductive Listener (V : Type) where
  | callback (calls : Nat) (body : Call V → Script V .listener)
  | channel (sent : List (Change V)) (taken : Nat)

namespace Listener

variable {V : Type}

/-- One more call of a callback. -/
def counted : Listener V → Listener V
  | .callback n body => .callback (n + 1) body
  | l => l

/-- Sends a change through a channel. -/
def send (c : Change V) : Listener V → Listener V
  | .channel sent taken => .channel (sent ++ [c]) taken
  | l => l

/-- Takes everything that is still in a channel. -/
def drain : Listener V → Listener V
  | .channel sent _ => .channel sent sent.length
  | l => l

/-- What is still in a channel. -/
def pending : Listener V → List (Change V)
  | .channel sent taken => sent.drop taken
  | .callback _ _ => []

@[simp] theorem pending_drain (l : Listener V) : l.drain.pending = [] := by
  cases l <;> simp [drain, pending]

theorem pending_send (c : Change V) (sent : List (Change V)) (taken : Nat)
    (htaken : taken ≤ sent.length) :
    ((Listener.channel sent taken).send c).pending =
      (Listener.channel sent taken).pending ++ [c] := by
  simp [send, pending, List.drop_append_of_le_length htaken]

end Listener

/-! ## The world -/

structure World (V : Type) where
  objects : Table (Object V) := {}
  listeners : Table (Listener V) := {}
  names : Registry := {}

namespace World

variable {V : Type}

/-- The object of a number, while it lives. -/
def object? (w : World V) (i : Id) : Option (Object V) := w.objects.get? i

def alive (w : World V) (i : Id) : Bool := (w.object? i).isSome

def property? (w : World V) (i : Id) : Option (Property V) := (w.object? i).bind (·.body.property?)

def binding? (w : World V) (i : Id) : Option (Binding V) := (w.object? i).bind (·.body.binding?)

/-- The value of an observable. -/
def value? (w : World V) (i : Id) : Option V := (w.object? i).bind (·.body.value?)

/-- The registrations of an object, oldest first. -/
def registrations (w : World V) (i : Id) : List Registration :=
  match w.object? i with
  | some o => o.registrations
  | none => []

/-- Whether the property is bound; a number that is no live property's is not. -/
def isBound (w : World V) (i : Id) : Bool := (w.property? i).any (·.source.isSome)

/-- What a name denotes, seen through one of the partial functions on handles. -/
def find? {α : Type} (w : World V) (name : String) (select : Handle → Option α) : Option α :=
  (w.names.find? name).bind select

/-! ## One-object writes -/

/-- Changes one live object. -/
def alter (w : World V) (i : Id) (f : Object V → Object V) : World V :=
  { w with objects := w.objects.modify i f }

/-- Replaces the value of an observable. -/
def store (w : World V) (i : Id) (v : V) : World V :=
  w.alter i fun o => { o with body := o.body.store v }

/-- Replaces what a property is bound to. -/
def follow (w : World V) (i : Id) (source : Option Id) : World V :=
  w.alter i fun o => { o with body := o.body.follow source }

/-- Adds a registration behind all others. -/
def register (w : World V) (i : Id) (r : Registration) : World V :=
  w.alter i fun o => { o with registrations := o.registrations ++ [r] }

/-- Removes the oldest registration that equals the given one, if there is one. -/
def unregister (w : World V) (i : Id) (r : Registration) : World V :=
  w.alter i fun o => { o with registrations := o.registrations.erase r }

/-- Adds an object under the next number, `w.objects.size`. -/
def create (w : World V) (body : Body V) : World V :=
  { w with objects := w.objects.push ⟨body, []⟩ }

/-- Adds a listener under the next number, `w.listeners.size`. -/
def createListener (w : World V) (l : Listener V) : World V :=
  { w with listeners := w.listeners.push l }

/-- Changes one listener. -/
def alterListener (w : World V) (l : ListenerId) (f : Listener V → Listener V) : World V :=
  { w with listeners := w.listeners.modify l f }

/-! ## What the writes show -/

theorem object?_alter (w : World V) (i j : Id) (f : Object V → Object V) :
    (w.alter i f).object? j = if i = j then (w.object? j).map f else w.object? j :=
  Table.get?_modify _ _ _ _

@[simp] theorem names_alter (w : World V) (i : Id) (f : Object V → Object V) :
    (w.alter i f).names = w.names := rfl

@[simp] theorem listeners_alter (w : World V) (i : Id) (f : Object V → Object V) :
    (w.alter i f).listeners = w.listeners := rfl

@[simp] theorem size_objects_alter (w : World V) (i : Id) (f : Object V → Object V) :
    (w.alter i f).objects.size = w.objects.size := by
  simp [alter]

theorem alterListener_of_get? {w : World V} {l : ListenerId} {x : Listener V}
    (hx : w.listeners.get? l = some x) (f : Listener V → Listener V) :
    w.alterListener l f = w.alterListener l fun _ => f x := by
  rw [alterListener, Table.modify_of_get? hx]
  rfl

theorem object?_create (w : World V) (body : Body V) (i : Id) :
    (w.create body).object? i = if i = w.objects.size then some ⟨body, []⟩ else w.object? i :=
  Table.get?_push _ _ _

theorem value?_store (w : World V) (i j : Id) (v : V) :
    (w.store i v).value? j = if i = j then (w.value? j).map (fun _ => v) else w.value? j := by
  unfold value? store
  rw [object?_alter]
  by_cases h : i = j
  · subst h
    cases w.object? i with
    | none => simp
    | some o =>
      cases hb : o.body <;> simp [Body.store, Body.value?, hb]
  · simp [h]

theorem registrations_store (w : World V) (i j : Id) (v : V) :
    (w.store i v).registrations j = w.registrations j := by
  unfold registrations store
  rw [object?_alter]
  by_cases h : i = j
  · subst h
    cases w.object? i <;> simp
  · simp [h]

theorem registrations_register (w : World V) (i j : Id) (r : Registration)
    (halive : w.alive i = true) :
    (w.register i r).registrations j =
      if i = j then w.registrations j ++ [r] else w.registrations j := by
  unfold registrations register
  rw [object?_alter]
  by_cases h : i = j
  · subst h
    obtain ⟨o, ho⟩ := Option.isSome_iff_exists.1 halive
    simp [ho]
  · simp [h]

theorem registrations_unregister (w : World V) (i j : Id) (r : Registration) :
    (w.unregister i r).registrations j =
      if i = j then (w.registrations j).erase r else w.registrations j := by
  unfold registrations unregister
  rw [object?_alter]
  by_cases h : i = j
  · subst h
    cases w.object? i <;> simp
  · simp [h]

theorem value?_register (w : World V) (i j : Id) (r : Registration) :
    (w.register i r).value? j = w.value? j := by
  unfold value? register
  rw [object?_alter]
  by_cases h : i = j
  · subst h
    cases w.object? i <;> simp
  · simp [h]

theorem value?_unregister (w : World V) (i j : Id) (r : Registration) :
    (w.unregister i r).value? j = w.value? j := by
  unfold value? unregister
  rw [object?_alter]
  by_cases h : i = j
  · subst h
    cases w.object? i <;> simp
  · simp [h]

end World

end Observable
